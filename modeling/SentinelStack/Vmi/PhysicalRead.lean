import SentinelStack.Lib.Bytes
import SentinelStack.Vmi.Memory

/- What a physical read returns (`vmi_read_physical`), over every memslot table
   and every outcome of the host's calls.

   A byte is the guest's when some memslot maps its address and the byte is the
   one the slot's host memory holds there. The memslot path writes no other bytes
   (`readViaMemslots_serves`), the fallback writes those of `/dev/mem`. Main
   result: `read_physical_guest_iff` — a successful read is all the guest's if and
   only if the memslots served it or `/dev/mem` happens to hold the guest's bytes
   at the guest's addresses. -/
namespace SentinelStack.Vmi
open SentinelStack.Lib

/-! Transfers. -/

/-- The bytes written are ones `P` allows at their addresses, no more than were asked for, and
    all of them if the read succeeded. -/
structure ReadResult.Serves (P : U64 → U8 → Prop) (addr : U64) (size : Nat) (r : ReadResult) : Prop where
  bytes : BytesOf P addr r.buf
  length_le : r.buf.length ≤ size
  complete : r.ok = true → r.buf.length = size

theorem serves_nothing (P : U64 → U8 → Prop) (addr : U64) (size : Nat) :
    ReadResult.Serves P addr size ⟨false, []⟩ where
  bytes := bytesOf_nil P addr
  length_le := Nat.zero_le size
  complete := by simp

theorem length_bytesAt (memory : U64 → U8) (addr : U64) (n : Nat) : (bytesAt memory addr n).length = n := by
  rw [bytesAt, List.length_map, List.length_range]

theorem bytesAt_congr {memory memory' : U64 → U8} {addr : U64} {n : Nat}
    (h : ∀ i < n, memory (addr + BitVec.ofNat 64 i) = memory' (addr + BitVec.ofNat 64 i)) :
    bytesAt memory addr n = bytesAt memory' addr n := by
  unfold bytesAt
  exact List.map_congr_left fun i hi => h i (List.mem_range.mp hi)

theorem bytesAt_add (memory : U64 → U8) (addr : U64) (m n : Nat) :
    bytesAt memory addr (m + n) = bytesAt memory addr m ++ bytesAt memory (addr + BitVec.ofNat 64 m) n := by
  unfold bytesAt
  rw [List.range_add, List.map_append, List.map_map]
  congr 1
  apply List.map_congr_left
  intro i _
  rw [Function.comp_apply, BitVec.ofNat_add, BitVec.add_assoc]

theorem bytesOf_bytesAt (memory : U64 → U8) (addr : U64) (n : Nat) :
    BytesOf (fun a b => b = memory a) addr (bytesAt memory addr n) := by
  intro i b hb
  rw [bytesAt, List.getElem?_map, Option.map_eq_some_iff] at hb
  obtain ⟨j, hj, rfl⟩ := hb
  obtain ⟨hi, rfl⟩ := List.getElem?_eq_some_iff.mp hj
  rw [List.getElem_range]

/-- A buffer filled from a memory is what the memory holds. -/
theorem eq_bytesAt {memory : U64 → U8} {addr : U64} {buf : List U8} (h : BytesOf (fun a b => b = memory a) addr buf) :
    buf = bytesAt memory addr buf.length := by
  apply List.ext_getElem?
  intro i
  by_cases hi : i < buf.length
  · have hget := List.getElem?_eq_getElem hi
    rw [hget, h i _ hget]
    simp [bytesAt, hi]
  · rw [List.getElem?_eq_none (by omega), List.getElem?_eq_none (by rw [length_bytesAt]; omega)]

theorem transferLoop_serves (outcome : Nat → IoOutcome) (memory : U64 → U8) (addr : U64) (size : Nat)
    (fuel call retries : Nat) (buf : List U8) (hbuf : BytesOf (fun a b => b = memory a) addr buf)
    (hlen : buf.length ≤ size) :
    (transferLoop outcome memory addr size fuel call retries buf).Serves (fun a b => b = memory a) addr size := by
  induction fuel generalizing call retries buf with
  | zero => exact ⟨hbuf, hlen, fun hok => le_antisymm hlen (of_decide_eq_true hok)⟩
  | succ fuel ih =>
    have hfail : ReadResult.Serves (fun a b => b = memory a) addr size ⟨false, buf⟩ := ⟨hbuf, hlen, by simp⟩
    rw [transferLoop]
    split
    next hlt =>
      split
      · exact hfail
      next n _ =>
        refine ih _ _ _ (hbuf.append (bytesOf_bytesAt memory _ _)) ?_
        rw [List.length_append, length_bytesAt]
        omega
      next =>
        split
        · exact ih _ _ buf hbuf hlen
        · exact hfail
      · exact hfail
    next hlt => exact ⟨hbuf, hlen, fun _ => by show buf.length = size; omega⟩

/-- A transfer moves the bytes of the memory it reads. -/
theorem transfer_serves (outcome : Nat → IoOutcome) (memory : U64 → U8) (addr : U64) (size : Nat) :
    (transfer outcome memory addr size).Serves (fun a b => b = memory a) addr size :=
  transferLoop_serves outcome memory addr size _ 0 0 [] (bytesOf_nil _ addr) (Nat.zero_le size)

/-! The memslots. -/

/-- The slot maps the guest-physical address. -/
def VmiMemslot.Maps (slot : VmiMemslot) (gpa : U64) : Prop :=
  gpa ≥ slot.guestPhysAddr ∧ gpa < slot.guestPhysAddr + slot.memorySize

instance (slot : VmiMemslot) (gpa : U64) : Decidable (slot.Maps gpa) := inferInstanceAs (Decidable (_ ∧ _))

/-- The memory the slot's addresses are in: that of the QEMU process, or this one's. -/
def VmiMemslot.hostMemory (host : Host) (slot : VmiMemslot) : U64 → U8 :=
  if slot.flags &&& vmiMemslotFRemoteProcess ≠ 0 then host.qemuMemory else host.ownMemory

/-- The guest's byte at an address, as the memslot table defines it. -/
def GuestByte (host : Host) (s : VmiSession) (gpa : U64) (b : U8) : Prop :=
  ∃ slot ∈ s.memslots, slot.Maps gpa ∧ b = slot.hostMemory host (slot.userspaceAddr + (gpa - slot.guestPhysAddr))

theorem findMemslot_some {s : VmiSession} {gpa offset : U64} {slot : VmiMemslot}
    (h : findMemslot s gpa = some (slot, offset)) :
    slot ∈ s.memslots ∧ slot.Maps gpa ∧ offset = gpa - slot.guestPhysAddr := by
  obtain ⟨slot', hfind, heq⟩ := Option.map_eq_some_iff.mp h
  rw [Prod.mk.injEq] at heq
  obtain ⟨rfl, rfl⟩ := heq
  have hmaps := List.find?_some hfind
  exact ⟨List.mem_of_find?_eq_some hfind, of_decide_eq_true hmaps, rfl⟩

namespace VmiMemslot.Maps

variable {slot : VmiMemslot} {gpa : U64}

/-- A slot that maps anything does not wrap. -/
theorem toNat (h : slot.Maps gpa) :
    slot.guestPhysAddr.toNat ≤ gpa.toNat ∧ gpa.toNat < slot.guestPhysAddr.toNat + slot.memorySize.toNat ∧
      slot.guestPhysAddr.toNat + slot.memorySize.toNat < 2 ^ 64 := by
  obtain ⟨hlo, hhi⟩ := h
  rw [ge_iff_le, BitVec.le_def] at hlo
  rw [BitVec.lt_def, BitVec.toNat_add] at hhi
  have hgpa := gpa.isLt
  have hsize := slot.memorySize.isLt
  omega

theorem toNat_offset (h : slot.Maps gpa) :
    (gpa - slot.guestPhysAddr).toNat = gpa.toNat - slot.guestPhysAddr.toNat :=
  BitVec.toNat_sub_of_le (BitVec.le_def.mpr h.toNat.1)

theorem toNat_available (h : slot.Maps gpa) :
    (slot.memorySize - (gpa - slot.guestPhysAddr)).toNat =
      slot.memorySize.toNat - (gpa.toNat - slot.guestPhysAddr.toNat) := by
  obtain ⟨hlo, hhi, -⟩ := h.toNat
  rw [BitVec.toNat_sub_of_le (BitVec.le_def.mpr (by rw [h.toNat_offset]; omega)), h.toNat_offset]

/-- It maps the addresses behind it as far as the slot goes. -/
theorem add (h : slot.Maps gpa) {i : Nat} (hi : i < (slot.memorySize - (gpa - slot.guestPhysAddr)).toNat) :
    slot.Maps (gpa + BitVec.ofNat 64 i) := by
  rw [h.toNat_available] at hi
  obtain ⟨hlo, hhi, hend⟩ := h.toNat
  have haddr : (gpa + BitVec.ofNat 64 i).toNat = gpa.toNat + i := toNat_add_ofNat (by omega)
  have hstop : (slot.guestPhysAddr + slot.memorySize).toNat = slot.guestPhysAddr.toNat + slot.memorySize.toNat := by
    rw [BitVec.toNat_add]
    omega
  exact ⟨BitVec.le_def.mpr (by omega), BitVec.lt_def.mpr (by omega)⟩

end VmiMemslot.Maps

/-- Bytes that are next to each other in a slot are so in the host. -/
theorem slot_addr_add (base start gpa : U64) (i : Nat) :
    base + (gpa - start) + BitVec.ofNat 64 i = base + (gpa + BitVec.ofNat 64 i - start) := by
  rw [BitVec.add_assoc, BitVec.sub_eq_add_neg, BitVec.sub_eq_add_neg]
  ac_rfl

theorem readRemoteProcess_serves (host : Host) (s : VmiSession) (addr : U64) (size : Nat) :
    (readRemoteProcess host s addr size).Serves (fun a b => b = host.qemuMemory a) addr size := by
  unfold readRemoteProcess
  split
  · exact serves_nothing _ _ _
  · exact transfer_serves _ _ _ _

/-- A chunk read from a slot is the slot's host memory. -/
theorem readSlot_serves (host : Host) (s : VmiSession) (slot : VmiMemslot) (offset : U64) (chunk : Nat) :
    (readSlot host s slot offset chunk).Serves (fun a b => b = slot.hostMemory host a) (slot.userspaceAddr + offset)
      chunk := by
  unfold readSlot VmiMemslot.hostMemory
  dsimp only
  split
  · exact readRemoteProcess_serves host s _ chunk
  · exact ⟨bytesOf_bytesAt host.ownMemory _ _, le_of_eq (length_bytesAt ..), fun _ => length_bytesAt ..⟩

/-- So are its bytes the guest's. -/
theorem readSlot_guest (host : Host) {s : VmiSession} {gpa offset : U64} {slot : VmiMemslot}
    (hfind : findMemslot s gpa = some (slot, offset)) {chunk : Nat} (hchunk : chunk ≤ (slot.memorySize - offset).toNat) :
    (readSlot host s slot offset chunk).Serves (GuestByte host s) gpa chunk := by
  obtain ⟨hmem, hmaps, rfl⟩ := findMemslot_some hfind
  have hserves := readSlot_serves host s slot (gpa - slot.guestPhysAddr) chunk
  refine ⟨fun i b hb => ?_, hserves.length_le, hserves.complete⟩
  have hi : i < (readSlot host s slot (gpa - slot.guestPhysAddr) chunk).buf.length :=
    (List.getElem?_eq_some_iff.mp hb).1
  have hlen := hserves.length_le
  refine ⟨slot, hmem, hmaps.add (by omega), ?_⟩
  rw [hserves.bytes i b hb, slot_addr_add]

theorem readMemslotsLoop_serves (host : Host) (s : VmiSession) (gpa : U64) (size fuel : Nat) (buf : List U8)
    (hbuf : BytesOf (GuestByte host s) gpa buf) (hlen : buf.length ≤ size) :
    (readMemslotsLoop host s gpa size fuel buf).Serves (GuestByte host s) gpa size := by
  induction fuel generalizing buf with
  | zero => exact ⟨hbuf, hlen, fun hok => le_antisymm hlen (of_decide_eq_true hok)⟩
  | succ fuel ih =>
    rw [readMemslotsLoop]
    split
    next hlt =>
      split
      · exact ⟨hbuf, hlen, by simp⟩
      next slot offset hfind =>
        have hchunk := readSlot_guest host hfind (Nat.min_le_right (size - buf.length) _)
        have hgrown := hbuf.append hchunk.bytes
        have hlen' : (buf ++ (readSlot host s slot offset
            (min (size - buf.length) (slot.memorySize - offset).toNat)).buf).length ≤ size := by
          have := hchunk.length_le
          rw [List.length_append]
          omega
        dsimp only
        split
        · exact ih _ hgrown hlen'
        · exact ⟨hgrown, hlen', by simp⟩
    next hlt => exact ⟨hbuf, hlen, fun _ => by show buf.length = size; omega⟩

/-- The memslot path writes nothing but the guest's bytes, whether it succeeds or not. -/
theorem readViaMemslots_serves (host : Host) (s : VmiSession) (gpa : U64) (size : Nat) :
    (readViaMemslots host s gpa size).Serves (GuestByte host s) gpa size := by
  unfold readViaMemslots
  split
  · exact serves_nothing _ _ _
  · exact readMemslotsLoop_serves host s gpa size size [] (bytesOf_nil _ gpa) (Nat.zero_le size)

/-- A read that one slot of this process's memory serves. -/
theorem vmiReadPhysical_own {host : Host} {s : VmiSession} {gpa offset : U64} {slot : VmiMemslot}
    (hfind : findMemslot s gpa = some (slot, offset)) (hown : slot.flags &&& vmiMemslotFRemoteProcess = 0) {size : Nat}
    (hsize : size ≠ 0) (hfits : size ≤ (slot.memorySize - offset).toNat) :
    vmiReadPhysical host s gpa size = ⟨true, bytesAt host.ownMemory (slot.userspaceAddr + offset) size⟩ := by
  have hslots : s.memslots ≠ [] := List.ne_nil_of_mem (findMemslot_some hfind).1
  have hread : readSlot host s slot offset size = ⟨true, bytesAt host.ownMemory (slot.userspaceAddr + offset) size⟩ := by
    rw [readSlot, if_neg (not_not.mpr hown)]
  have hlen := length_bytesAt host.ownMemory (slot.userspaceAddr + offset) size
  have hvia : readViaMemslots host s gpa size = ⟨true, bytesAt host.ownMemory (slot.userspaceAddr + offset) size⟩ := by
    rw [readViaMemslots, if_neg (not_or.mpr ⟨hsize, hslots⟩)]
    obtain ⟨fuel, rfl⟩ := Nat.exists_eq_succ_of_ne_zero hsize
    rw [readMemslotsLoop, List.length_nil, if_pos (Nat.succ_pos fuel), BitVec.add_zero, hfind]
    dsimp only
    rw [Nat.sub_zero, Nat.min_eq_left hfits, hread, if_pos rfl, List.nil_append]
    cases fuel with
    | zero => rw [readMemslotsLoop, hlen]; rfl
    | succ fuel => rw [readMemslotsLoop, hlen, if_neg (Nat.lt_irrefl _)]
  rw [vmiReadPhysical, if_neg hsize]
  dsimp only
  rw [hvia, if_pos rfl]

/-! The fallback. -/

/-- The byte `/dev/mem` holds at an address of the host. -/
def DevMemByte (host : Host) (addr : U64) (b : U8) : Prop := ∃ dev, host.devMem = some dev ∧ b = dev.memory addr

theorem readViaDevmem_serves (host : Host) (gpa : U64) (size : Nat) :
    (readViaDevmem host gpa size).Serves (DevMemByte host) gpa size := by
  unfold readViaDevmem
  split
  · exact serves_nothing _ _ _
  next dev hdev =>
    split
    · obtain ⟨hbytes, hlen, hcomplete⟩ := transfer_serves (dev.read gpa size) dev.memory gpa size
      exact ⟨hbytes.mono fun a b hb => ⟨dev, hdev, hb⟩, hlen, hcomplete⟩
    · exact serves_nothing _ _ _

/-- A successful fallback overwrites all the memslot path may have left in the buffer. -/
theorem vmiReadPhysical_of_fallback {host : Host} {s : VmiSession} {gpa : U64} {size : Nat} (hsize : size ≠ 0)
    (hslots : (readViaMemslots host s gpa size).ok = false) (hdev : (readViaDevmem host gpa size).ok = true) :
    vmiReadPhysical host s gpa size = readViaDevmem host gpa size := by
  have hlen := (readViaMemslots_serves host s gpa size).length_le
  have hfull := (readViaDevmem_serves host gpa size).complete hdev
  rw [vmiReadPhysical, if_neg hsize]
  dsimp only
  rw [if_neg (by simp [hslots]), overwrite, List.drop_of_length_le (by omega), List.append_nil]

theorem vmiReadPhysical_of_memslots {host : Host} {s : VmiSession} {gpa : U64} {size : Nat}
    (hslots : (readViaMemslots host s gpa size).ok = true) :
    vmiReadPhysical host s gpa size = readViaMemslots host s gpa size := by
  have hsize : size ≠ 0 := by
    rintro rfl
    simp [readViaMemslots] at hslots
  rw [vmiReadPhysical, if_neg hsize]
  dsimp only
  rw [if_pos hslots]

theorem vmiReadPhysical_of_failure {host : Host} {s : VmiSession} {gpa : U64} {size : Nat} (hsize : size ≠ 0)
    (hslots : (readViaMemslots host s gpa size).ok = false) (hdev : (readViaDevmem host gpa size).ok = false) :
    vmiReadPhysical host s gpa size =
      ⟨false, overwrite (readViaDevmem host gpa size).buf (readViaMemslots host s gpa size).buf⟩ := by
  rw [vmiReadPhysical, if_neg hsize]
  dsimp only
  rw [if_neg (by simp [hslots]), hdev]

/-- No read writes more than it was asked for, and a successful one writes as much. -/
theorem vmiReadPhysical_serves (host : Host) (s : VmiSession) (gpa : U64) (size : Nat) :
    (vmiReadPhysical host s gpa size).Serves (fun a b => GuestByte host s a b ∨ DevMemByte host a b) gpa size := by
  obtain ⟨hbytes, hlen, hfull⟩ := readViaMemslots_serves host s gpa size
  obtain ⟨hbytes', hlen', hfull'⟩ := readViaDevmem_serves host gpa size
  by_cases hsize : size = 0
  · rw [vmiReadPhysical, if_pos hsize]
    exact serves_nothing _ _ _
  cases hslots : (readViaMemslots host s gpa size).ok with
  | true =>
    rw [vmiReadPhysical_of_memslots hslots]
    exact ⟨hbytes.mono fun _ _ => Or.inl, hlen, hfull⟩
  | false =>
    cases hdev : (readViaDevmem host gpa size).ok with
    | true =>
      rw [vmiReadPhysical_of_fallback hsize hslots hdev]
      exact ⟨hbytes'.mono fun _ _ => Or.inr, hlen', hfull'⟩
    | false =>
      rw [vmiReadPhysical_of_failure hsize hslots hdev]
      refine ⟨(hbytes'.mono fun _ _ => Or.inr).append ((hbytes.drop _).mono fun _ _ => Or.inl), ?_, by simp⟩
      rw [overwrite, List.length_append, List.length_drop]
      omega

/-- `/dev/mem` holds the guest's byte at each of the guest's addresses. -/
def DevMemIsGuest (host : Host) (s : VmiSession) (gpa : U64) (size : Nat) : Prop :=
  ∀ dev, host.devMem = some dev →
    ∀ i < size, GuestByte host s (gpa + BitVec.ofNat 64 i) (dev.memory (gpa + BitVec.ofNat 64 i))

theorem devmem_guest_iff {host : Host} {s : VmiSession} {gpa : U64} {size : Nat}
    (hdev : (readViaDevmem host gpa size).ok = true) :
    BytesOf (GuestByte host s) gpa (readViaDevmem host gpa size).buf ↔ DevMemIsGuest host s gpa size := by
  obtain ⟨hbytes, -, hfull⟩ := readViaDevmem_serves host gpa size
  have hlen := hfull hdev
  constructor
  · intro h dev hopen i hi
    have hget := List.getElem?_eq_getElem (hlen ▸ hi)
    obtain ⟨dev', hopen', hb⟩ := hbytes i _ hget
    obtain rfl : dev = dev' := Option.some.inj (hopen ▸ hopen')
    exact hb ▸ h i _ hget
  · intro h i b hb
    obtain ⟨dev, hopen, rfl⟩ := hbytes i b hb
    exact h dev hopen i (hlen ▸ (List.getElem?_eq_some_iff.mp hb).1)

/-- **Whose bytes a read returns.** The memslots serve the guest's bytes only. What they do not
    cover is asked of `/dev/mem`, the memory of the host, and if that answers the read succeeds. -/
theorem read_physical_guest_iff (host : Host) (s : VmiSession) (gpa : U64) (size : Nat) :
    ((vmiReadPhysical host s gpa size).ok = true →
        (vmiReadPhysical host s gpa size).buf.length = size ∧
          BytesOf (GuestByte host s) gpa (vmiReadPhysical host s gpa size).buf) ↔
      (readViaMemslots host s gpa size).ok = true ∨ (readViaDevmem host gpa size).ok = false ∨
        DevMemIsGuest host s gpa size := by
  obtain ⟨hbytes, -, hfull⟩ := readViaMemslots_serves host s gpa size
  by_cases hsize : size = 0
  · subst hsize
    apply iff_of_true
    · simp [vmiReadPhysical]
    · exact Or.inr (Or.inr fun dev _ i hi => absurd hi (Nat.not_lt_zero i))
  cases hslots : (readViaMemslots host s gpa size).ok with
  | true =>
    rw [vmiReadPhysical_of_memslots hslots]
    exact iff_of_true (fun _ => ⟨hfull hslots, hbytes⟩) (Or.inl rfl)
  | false =>
    cases hdev : (readViaDevmem host gpa size).ok with
    | true =>
      rw [vmiReadPhysical_of_fallback hsize hslots hdev, ← devmem_guest_iff hdev]
      simp [hdev, (readViaDevmem_serves host gpa size).complete hdev]
    | false =>
      rw [vmiReadPhysical_of_failure hsize hslots hdev]
      simp

/-! A session without memslots, on a host that lets `/dev/mem` be read. -/

def readableDevMem : DevMem := ⟨fun _ => true, fun _ => 0x41, fun _ size _ => .moved size⟩

def unmappedSession : VmiSession := ⟨[], 1, 0, 0, false, 0, 0⟩

def devMemHost : Host := ⟨fun _ => 0, fun _ => 0, fun _ _ _ => .failed, some readableDevMem⟩

/-- Nothing is the guest's, and the read returns a byte of the host's. -/
theorem uncovered_read_succeeds :
    vmiReadPhysical devMemHost unmappedSession 0x1000 1 = ⟨true, [0x41]⟩ ∧
      ¬ ∃ b, GuestByte devMemHost unmappedSession 0x1000 b := by
  refine ⟨by decide +kernel, ?_⟩
  rintro ⟨b, slot, hmem, -⟩
  exact absurd hmem List.not_mem_nil

end SentinelStack.Vmi
