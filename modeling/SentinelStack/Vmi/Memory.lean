import SentinelStack.Lib.CTypes
import Mathlib.Data.Nat.Bitwise

/- Guest memory (`memory.c`): physical reads through the memslot table with the
   `/dev/mem` fallback, and the four-level page-table walk.

   What the host answers is a parameter (`Host`): the bytes of this process, of
   the QEMU process and of `/dev/mem`, and for each transfer the outcome of each
   of its system calls. Guest memory does not change during a call.

   Main result: `vmiGvaToGpa_samePage` — the walk maps a page onto a frame, byte
   by byte, whatever the size of the page it ends in. -/
namespace SentinelStack.Vmi
open SentinelStack.Lib

def vmiPageSize : Nat := 4096
def vmiMemslotFRemoteProcess : U32 := 1 <<< 31
def vmiIoRetryMax : Nat := 3

structure VmiMemslot where
  guestPhysAddr : U64
  memorySize : U64
  userspaceAddr : U64
  slot : U32
  flags : U32
  deriving DecidableEq, Repr

/-- The part of `struct vmi_session` the modelled functions use. -/
structure VmiSession where
  memslots : List VmiMemslot
  qemuPid : Int
  syscallTableGpa : U64
  syscallTableGva : U64
  nptArmed : Bool
  kaslrOffset : U64
  kernelPgd : U64
  deriving DecidableEq, Repr

/-- One transfer call (`process_vm_readv`, `read`): so many bytes moved, an error worth
    retrying, or another error. -/
inductive IoOutcome where
  | moved (n : Nat)
  | transient
  | failed
  deriving DecidableEq, Repr

/-- An open `/dev/mem`: whether `lseek` succeeds, its bytes, and the outcome of the `call`-th
    `read` of a transfer. -/
structure DevMem where
  lseek : U64 → Bool
  memory : U64 → U8
  read : (gpa : U64) → (size call : Nat) → IoOutcome

structure Host where
  ownMemory : U64 → U8
  qemuMemory : U64 → U8
  processVmReadv : (remoteAddr : U64) → (size call : Nat) → IoOutcome
  devMem : Option DevMem

/-! Physical reads. -/

/-- A read into a caller's buffer: whether it returned 0, and the bytes it wrote from the
    front of the buffer, which a failed read leaves there. -/
structure ReadResult where
  ok : Bool
  buf : List U8
  deriving DecidableEq, Repr

/-- The bytes of a read that succeeded. -/
def ReadResult.bytes? (r : ReadResult) : Option (List U8) := if r.ok then some r.buf else none

def bytesAt (memory : U64 → U8) (addr : U64) (n : Nat) : List U8 :=
  (List.range n).map fun i => memory (addr + BitVec.ofNat 64 i)

/-- The slot holding `gpa`, and the offset in it. -/
def findMemslot (s : VmiSession) (gpa : U64) : Option (VmiMemslot × U64) :=
  (s.memslots.find? fun slot => gpa ≥ slot.guestPhysAddr ∧ gpa < slot.guestPhysAddr + slot.memorySize).map
    fun slot => (slot, gpa - slot.guestPhysAddr)

/-- The loop of `read_remote_process` and `read_via_devmem`: short transfers are continued,
    transient errors retried `VMI_IO_RETRY_MAX` times in a row. -/
def transferLoop (outcome : Nat → IoOutcome) (memory : U64 → U8) (addr : U64) (size : Nat) :
    (fuel call retries : Nat) → (buf : List U8) → ReadResult
  | 0, _, _, buf => ⟨size ≤ buf.length, buf⟩
  | fuel + 1, call, retries, buf =>
    if buf.length < size then
      match outcome call with
      | .moved 0 => ⟨false, buf⟩
      | .moved n =>
        transferLoop outcome memory addr size fuel (call + 1) 0
          (buf ++ bytesAt memory (addr + BitVec.ofNat 64 buf.length) (min n (size - buf.length)))
      | .transient =>
        if retries < vmiIoRetryMax then
          transferLoop outcome memory addr size fuel (call + 1) (retries + 1) buf
        else ⟨false, buf⟩
      | .failed => ⟨false, buf⟩
    else ⟨true, buf⟩

/-- Each byte takes at most `VMI_IO_RETRY_MAX + 1` calls, which bounds the calls of a transfer. -/
def transfer (outcome : Nat → IoOutcome) (memory : U64 → U8) (addr : U64) (size : Nat) : ReadResult :=
  transferLoop outcome memory addr size ((vmiIoRetryMax + 1) * size) 0 0 []

def readRemoteProcess (host : Host) (s : VmiSession) (remoteAddr : U64) (size : Nat) : ReadResult :=
  if s.qemuPid ≤ 0 ∨ size = 0 then ⟨false, []⟩
  else transfer (host.processVmReadv remoteAddr size) host.qemuMemory remoteAddr size

/-- One chunk of `read_via_memslots`: from the QEMU process, or from this one. -/
def readSlot (host : Host) (s : VmiSession) (slot : VmiMemslot) (offset : U64) (chunk : Nat) : ReadResult :=
  let hostAddr := slot.userspaceAddr + offset
  if slot.flags &&& vmiMemslotFRemoteProcess ≠ 0 then readRemoteProcess host s hostAddr chunk
  else ⟨true, bytesAt host.ownMemory hostAddr chunk⟩

def readMemslotsLoop (host : Host) (s : VmiSession) (gpa : U64) (size : Nat) :
    (fuel : Nat) → (buf : List U8) → ReadResult
  | 0, buf => ⟨size ≤ buf.length, buf⟩
  | fuel + 1, buf =>
    if buf.length < size then
      match findMemslot s (gpa + BitVec.ofNat 64 buf.length) with
      | none => ⟨false, buf⟩
      | some (slot, offset) =>
        let available := slot.memorySize - offset
        let chunk := min (size - buf.length) available.toNat
        let r := readSlot host s slot offset chunk
        if r.ok then readMemslotsLoop host s gpa size fuel (buf ++ r.buf) else ⟨false, buf ++ r.buf⟩
    else ⟨true, buf⟩

/-- The loop moves at least one byte a turn. -/
def readViaMemslots (host : Host) (s : VmiSession) (gpa : U64) (size : Nat) : ReadResult :=
  if size = 0 ∨ s.memslots = [] then ⟨false, []⟩ else readMemslotsLoop host s gpa size size []

def readViaDevmem (host : Host) (gpa : U64) (size : Nat) : ReadResult :=
  match host.devMem with
  | none => ⟨false, []⟩
  | some dev => if dev.lseek gpa then transfer (dev.read gpa size) dev.memory gpa size else ⟨false, []⟩

def vmiReadPhysical (host : Host) (s : VmiSession) (gpa : U64) (size : Nat) : ReadResult :=
  if size = 0 then ⟨false, []⟩
  else
    let r := readViaMemslots host s gpa size
    if r.ok then r
    else
      let fallback := readViaDevmem host gpa size
      ⟨fallback.ok, overwrite fallback.buf r.buf⟩

/-! The page-table walk. -/

def ptEntrySize : U64 := 8
def ptPresent : U64 := 1 <<< 0
def ptPagesize : U64 := 1 <<< 7
def ptAddrMask : U64 := 0x000FFFFFFFFFF000

def pml4Index (va : U64) : U64 := (va >>> 39) &&& 0x1FF
def pdptIndex (va : U64) : U64 := (va >>> 30) &&& 0x1FF
def pdIndex (va : U64) : U64 := (va >>> 21) &&& 0x1FF
def ptIndex (va : U64) : U64 := (va >>> 12) &&& 0x1FF

/-- The page a walk ends in. -/
inductive PageSize where
  | page1G
  | page2M
  | page4K
  deriving DecidableEq, Repr

namespace PageSize

/-- The bits of the offset within the page. -/
def shift : PageSize → Nat
  | page1G => 30
  | page2M => 21
  | page4K => 12

/-- The bits of the entry that give the frame. -/
def frameMask : PageSize → U64
  | page1G => 0x000FFFFFC0000000
  | page2M => 0x000FFFFFFFE00000
  | page4K => ptAddrMask

/-- The bits of the address that give the offset. -/
def offsetMask : PageSize → U64
  | page1G => 0x3FFFFFFF
  | page2M => 0x1FFFFF
  | page4K => 0xFFF

end PageSize

def readEntry (host : Host) (s : VmiSession) (addr : U64) : Option U64 :=
  (vmiReadPhysical host s addr 8).bytes?.map leWord

/-- A present entry of a table. -/
def presentEntry (host : Host) (s : VmiSession) (base index : U64) : Option U64 :=
  (readEntry host s (base + index * ptEntrySize)).filter fun entry => entry &&& ptPresent ≠ 0

/-- The levels of `vmi_gva_to_gpa`: the leaf entry and the size of the page it maps. -/
def walk (host : Host) (s : VmiSession) (cr3 gva : U64) : Option (PageSize × U64) := do
  let pml4e ← presentEntry host s (cr3 &&& ptAddrMask) (pml4Index gva)
  let pdpte ← presentEntry host s (pml4e &&& ptAddrMask) (pdptIndex gva)
  if pdpte &&& ptPagesize ≠ 0 then return (.page1G, pdpte)
  let pde ← presentEntry host s (pdpte &&& ptAddrMask) (pdIndex gva)
  if pde &&& ptPagesize ≠ 0 then return (.page2M, pde)
  let pte ← presentEntry host s (pde &&& ptAddrMask) (ptIndex gva)
  return (.page4K, pte)

def vmiGvaToGpa (host : Host) (s : VmiSession) (cr3 gva : U64) : Option U64 :=
  (walk host s cr3 gva).map fun (size, entry) => (entry &&& size.frameMask) ||| (gva &&& size.offsetMask)

/-- Two addresses in one page of the given size. -/
def SamePage (size : PageSize) (a b : U64) : Prop := a >>> size.shift = b >>> size.shift

instance (size : PageSize) (a b : U64) : Decidable (SamePage size a b) :=
  inferInstanceAs (Decidable (a >>> size.shift = b >>> size.shift))

theorem shift_congr {a b : U64} {k m : Nat} (h : a >>> k = b >>> k) (hkm : k ≤ m) : a >>> m = b >>> m := by
  obtain ⟨d, rfl⟩ := Nat.exists_eq_add_of_le hkm
  rw [BitVec.shiftRight_add, BitVec.shiftRight_add, h]

theorem walk_samePage {host : Host} {s : VmiSession} {cr3 gva gva' : U64} {size : PageSize} {entry : U64}
    (h : walk host s cr3 gva = some (size, entry)) (hsame : SamePage size gva gva') :
    walk host s cr3 gva' = some (size, entry) := by
  -- a page of `2 ^ k` bytes is found with the address bits from `k` up, which the two share
  have pml4 : pml4Index gva' = pml4Index gva := by
    rw [pml4Index, pml4Index, shift_congr hsame (by cases size <;> decide)]
  have pdpt : pdptIndex gva' = pdptIndex gva := by
    rw [pdptIndex, pdptIndex, shift_congr hsame (by cases size <;> decide)]
  simp only [walk, Option.bind_eq_bind, Option.bind_eq_some_iff, pml4, pdpt] at h ⊢
  obtain ⟨pml4e, hpml4e, pdpte, hpdpte, h⟩ := h
  refine ⟨pml4e, hpml4e, pdpte, hpdpte, ?_⟩
  split at h
  · next h1G => rw [if_pos h1G]; exact h
  next h1G =>
  rw [if_neg h1G]
  rw [Option.bind_eq_some_iff] at h ⊢
  obtain ⟨pde, hpde, h⟩ := h
  split at h
  · next h2M =>
    cases h
    have pd : pdIndex gva' = pdIndex gva := by rw [pdIndex, pdIndex, shift_congr hsame (by decide)]
    exact ⟨_, pd ▸ hpde, by rw [if_pos h2M]; rfl⟩
  next h2M =>
  obtain ⟨pte, hpte, h⟩ := Option.bind_eq_some_iff.mp h
  cases h
  have pd : pdIndex gva' = pdIndex gva := by rw [pdIndex, pdIndex, shift_congr hsame (by decide)]
  have pt : ptIndex gva' = ptIndex gva := by rw [ptIndex, ptIndex, shift_congr hsame (by decide)]
  refine ⟨pde, pd ▸ hpde, ?_⟩
  rw [if_neg h2M, pt, hpte]
  rfl

theorem PageSize.toNat_frame_or_offset (size : PageSize) (entry gva : U64) :
    ((entry &&& size.frameMask) ||| (gva &&& size.offsetMask)).toNat =
      (entry &&& size.frameMask).toNat + gva.toNat % 2 ^ size.shift := by
  have hdisjoint : (entry &&& size.frameMask) &&& (gva &&& size.offsetMask) = 0 := by
    have hmask : size.frameMask &&& size.offsetMask = 0 := by cases size <;> decide
    calc (entry &&& size.frameMask) &&& (gva &&& size.offsetMask)
        = (entry &&& gva) &&& (size.frameMask &&& size.offsetMask) := by ac_rfl
      _ = 0 := by rw [hmask]; exact BitVec.and_zero
  have hoff : (gva &&& size.offsetMask).toNat = gva.toNat % 2 ^ size.shift := by
    rw [BitVec.toNat_and, ← Nat.and_two_pow_sub_one_eq_mod]
    cases size <;> rfl
  have hframe : (entry &&& size.frameMask).toNat < 2 ^ 52 := by
    rw [BitVec.toNat_and]
    exact Nat.and_le_right.trans_lt (by cases size <;> decide)
  have hlow : gva.toNat % 2 ^ size.shift < 2 ^ 30 :=
    (Nat.mod_lt _ (Nat.two_pow_pos _)).trans_le (by cases size <;> decide)
  rw [← BitVec.add_eq_or_of_and_eq_zero _ _ hdisjoint, BitVec.toNat_add, hoff, Nat.mod_eq_of_lt (by omega)]

/-- **A page is mapped onto a frame.** Where the walk of `gva` ends in a page of some size,
    the walk of any address of that page ends at the same distance in the frame. -/
theorem vmiGvaToGpa_samePage {host : Host} {s : VmiSession} {cr3 gva : U64} {size : PageSize} {entry gpa : U64}
    (hwalk : walk host s cr3 gva = some (size, entry)) (hgpa : vmiGvaToGpa host s cr3 gva = some gpa)
    {i : Nat} (hi : i < 2 ^ 32) (hsame : SamePage size gva (gva + BitVec.ofNat 64 i)) :
    ∃ gpa', vmiGvaToGpa host s cr3 (gva + BitVec.ofNat 64 i) = some gpa' ∧ gpa'.toNat = gpa.toNat + i := by
  have hwalk' := walk_samePage hwalk hsame
  rw [vmiGvaToGpa, hwalk, Option.map_some, Option.some.injEq] at hgpa
  refine ⟨_, by rw [vmiGvaToGpa, hwalk', Option.map_some], ?_⟩
  rw [← hgpa, PageSize.toNat_frame_or_offset, PageSize.toNat_frame_or_offset]
  -- in one page, the addresses differ by `i` and so do their offsets
  have hdiv : gva.toNat / 2 ^ size.shift = (gva + BitVec.ofNat 64 i).toNat / 2 ^ size.shift := by
    have := congrArg BitVec.toNat hsame
    rwa [BitVec.toNat_ushiftRight, BitVec.toNat_ushiftRight, Nat.shiftRight_eq_div_pow,
      Nat.shiftRight_eq_div_pow] at this
  have hadd : (gva + BitVec.ofNat 64 i).toNat = (gva.toNat + i) % 2 ^ 64 := by
    rw [BitVec.toNat_add, BitVec.toNat_ofNat, Nat.add_mod_mod]
  have hmod := Nat.div_add_mod gva.toNat (2 ^ size.shift)
  have hmod' := Nat.div_add_mod (gva + BitVec.ofNat 64 i).toNat (2 ^ size.shift)
  have hlow : gva.toNat % 2 ^ size.shift < 2 ^ 30 :=
    (Nat.mod_lt _ (Nat.two_pow_pos _)).trans_le (by cases size <;> decide)
  have hlt := gva.isLt
  rw [← hdiv] at hmod'
  omega

end SentinelStack.Vmi
