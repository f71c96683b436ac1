import SentinelStack.Vmi.Memslots

/- Virtual reads (`vmi_read_virtual`): split at the pages of the guest, each page
   translated once, and each part split again at the memslots.

   Main result: `read_virtual_eq_bytewise` — over the memslot table of a QEMU
   process this is the read that translates and reads every byte by itself, and
   fails if and only if that does. -/
namespace SentinelStack.Vmi
open SentinelStack.Lib

/-- The loop of `vmi_read_virtual`; `gva` moves with the bytes read. -/
def readVirtualLoop (host : Host) (s : VmiSession) (cr3 : U64) (size : Nat) :
    (fuel : Nat) → (gva : U64) → (buf : List U8) → ReadResult
  | 0, _, buf => ⟨size ≤ buf.length, buf⟩
  | fuel + 1, gva, buf =>
    if buf.length < size then
      let pageRemaining := vmiPageSize - (gva &&& 0xFFF).toNat
      let chunk := min (size - buf.length) pageRemaining
      match vmiGvaToGpa host s cr3 gva with
      | none => ⟨false, buf⟩
      | some gpa =>
        let r := vmiReadPhysical host s gpa chunk
        if r.ok then readVirtualLoop host s cr3 size fuel (gva + BitVec.ofNat 64 chunk) (buf ++ r.buf)
        else ⟨false, buf ++ r.buf⟩
    else ⟨true, buf⟩

/-- The loop reads at least one byte a turn. -/
def vmiReadVirtual (host : Host) (s : VmiSession) (cr3 gva : U64) (size : Nat) : ReadResult :=
  if size = 0 then ⟨false, []⟩ else readVirtualLoop host s cr3 size size gva []

/-! The abstract read: one byte at a time. -/

/-- One byte of guest-physical memory. -/
def readByte (host : Host) (s : VmiSession) (gpa : U64) : Option U8 := (vmiReadPhysical host s gpa 1).bytes?.bind (·.head?)

/-- One byte of guest-virtual memory: translated, and read. -/
def readVirtualByte (host : Host) (s : VmiSession) (cr3 gva : U64) : Option U8 :=
  (vmiGvaToGpa host s cr3 gva).bind (readByte host s)

/-- `/dev/mem` serves no read. -/
def MemslotsOnly (host : Host) : Prop := ∀ gpa size, 0 < size → (readViaDevmem host gpa size).ok = false

/-- The memory of the QEMU process stays as it is: a transfer succeeds if and only if each of its
    bytes can be transferred. -/
def SteadyMemory (host : Host) (s : VmiSession) : Prop :=
  ∀ addr size, 0 < size →
    ((readRemoteProcess host s addr size).ok = true ↔
      ∀ i < size, (readRemoteProcess host s (addr + BitVec.ofNat 64 i) 1).ok = true)

/-! Transfers, byte by byte. -/

theorem bytesAt_succ (memory : U64 → U8) (addr : U64) (n : Nat) :
    bytesAt memory addr (n + 1) = memory addr :: bytesAt memory (addr + 1) n := by
  simp only [bytesAt, List.range_succ_eq_map, List.map_cons, List.map_map, Function.comp_def, addr_succ]
  simp

theorem readBytes_some (memory : U64 → U8) (addr : U64) (n : Nat) :
    readBytes (fun a => some (memory a)) addr n = some (bytesAt memory addr n) := by
  induction n generalizing addr with
  | zero => rfl
  | succ n ih => rw [readBytes, Option.bind_some, ih, Option.map_some, bytesAt_succ]

section
variable {host : Host} {s : VmiSession}

/-- A byte of the QEMU process, if it can be read. -/
def remoteByte (host : Host) (s : VmiSession) (addr : U64) : Option U8 :=
  if (readRemoteProcess host s addr 1).ok then some (host.qemuMemory addr) else none

theorem readRemoteProcess_bytes (hsteady : SteadyMemory host s) (addr : U64) {size : Nat} (hsize : 0 < size) :
    (readRemoteProcess host s addr size).bytes? = readBytes (remoteByte host s) addr size := by
  by_cases hok : (readRemoteProcess host s addr size).ok = true
  · have hbyte := (hsteady addr size hsize).mp hok
    have hcongr : readBytes (remoteByte host s) addr size = readBytes (fun a => some (host.qemuMemory a)) addr size :=
      readBytes_congr fun i hi => by rw [remoteByte, if_pos (hbyte i hi)]
    have hserves := readRemoteProcess_serves host s addr size
    rw [ReadResult.bytes?, if_pos hok, hcongr, readBytes_some, eq_bytesAt hserves.bytes, hserves.complete hok]
  · obtain ⟨i, hi, hbyte⟩ : ∃ i < size, ¬ (readRemoteProcess host s (addr + BitVec.ofNat 64 i) 1).ok = true := by
      by_contra hall
      exact hok ((hsteady addr size hsize).mpr fun i hi => not_not.mp fun hno => hall ⟨i, hi, hno⟩)
    rw [ReadResult.bytes?, if_neg hok, readBytes_eq_none hi (by rw [remoteByte, if_neg hbyte])]

/-! The memslots, byte by byte. -/

/-- A byte of the slot that maps the address. -/
def memslotByte (host : Host) (s : VmiSession) (gpa : U64) : Option U8 :=
  (findMemslot s gpa).bind fun (slot, offset) => remoteByte host s (slot.userspaceAddr + offset)

theorem readSlot_bytes (hslots : EndToEnd 0 s.memslots) (hsteady : SteadyMemory host s) {gpa offset : U64}
    {slot : VmiMemslot} (hfind : findMemslot s gpa = some (slot, offset)) {chunk : Nat} (hpos : 0 < chunk)
    (hchunk : chunk ≤ (slot.memorySize - offset).toNat) :
    (readSlot host s slot offset chunk).bytes? = readBytes (memslotByte host s) gpa chunk := by
  obtain ⟨hmem, hmaps, rfl⟩ := findMemslot_some hfind
  rw [readSlot, if_pos (hslots.remote hmem), readRemoteProcess_bytes hsteady _ hpos]
  apply readBytes_congr
  intro i hi
  -- the bytes behind it are in the same slot
  rw [memslotByte, findMemslot_eq hslots hmem (hmaps.add (by omega)), Option.bind_some, slot_addr_add]

/-- One turn of a reading loop: a chunk that is a read of its own, and the rest. -/
theorem chunk_bytes {f : U64 → Option U8} {addr : U64} {chunk remaining : Nat} {r : ReadResult} {buf : List U8}
    {next : ReadResult} (hchunk : chunk ≤ remaining) (hr : r.bytes? = readBytes f addr chunk)
    (hnext : r.buf.length = chunk → next.bytes? =
      (readBytes f (addr + BitVec.ofNat 64 chunk) (remaining - chunk)).map (buf ++ r.buf ++ ·)) :
    (if r.ok then next else ⟨false, buf ++ r.buf⟩).bytes? = (readBytes f addr remaining).map (buf ++ ·) := by
  obtain ⟨rest, rfl⟩ := Nat.exists_eq_add_of_le hchunk
  rw [Nat.add_sub_cancel_left] at hnext
  rw [readBytes_add, ← hr]
  by_cases hok : r.ok = true
  · have hbytes : r.bytes? = some r.buf := by rw [ReadResult.bytes?, if_pos hok]
    rw [if_pos hok, hbytes, Option.bind_some, hnext (length_readBytes (hr ▸ hbytes)), Option.map_map]
    congr 1
    funext ys
    rw [Function.comp_apply, List.append_assoc]
  · have hbytes : r.bytes? = none := by rw [ReadResult.bytes?, if_neg hok]
    rw [if_neg hok, hbytes]
    rfl

theorem readMemslotsLoop_bytes (hslots : EndToEnd 0 s.memslots) (hsteady : SteadyMemory host s) (gpa : U64)
    (size fuel : Nat) (buf : List U8) (hlen : buf.length ≤ size) (hfuel : size - buf.length ≤ fuel) :
    (readMemslotsLoop host s gpa size fuel buf).bytes? =
      (readBytes (memslotByte host s) (gpa + BitVec.ofNat 64 buf.length) (size - buf.length)).map (buf ++ ·) := by
  induction fuel generalizing buf with
  | zero =>
    rw [readMemslotsLoop, show size - buf.length = 0 by omega]
    simp [ReadResult.bytes?, readBytes, show size ≤ buf.length by omega]
  | succ fuel ih =>
    rw [readMemslotsLoop]
    split
    next hlt =>
      obtain ⟨m, hm⟩ : ∃ m, size - buf.length = m + 1 := ⟨size - buf.length - 1, by omega⟩
      split
      next hfind =>
        rw [hm, readBytes, memslotByte, hfind]
        rfl
      next slot offset hfind =>
        have hmaps := (findMemslot_some hfind).2.1
        obtain ⟨hlo, hhi, -⟩ := hmaps.toNat
        have hoffset := (findMemslot_some hfind).2.2
        have havail := hmaps.toNat_available
        rw [← hoffset] at havail
        dsimp only
        apply chunk_bytes (Nat.min_le_left _ _) (readSlot_bytes hslots hsteady hfind (by omega) (Nat.min_le_right _ _))
        intro hbuf
        rw [ih _ (by rw [List.length_append]; omega) (by rw [List.length_append]; omega), List.length_append, hbuf,
          BitVec.ofNat_add, BitVec.add_assoc, Nat.sub_add_eq]
    next hlt =>
      rw [show size - buf.length = 0 by omega]
      simp [ReadResult.bytes?, readBytes]

/-- A read that only memslots can serve is the read of every byte from its slot. -/
theorem vmiReadPhysical_memslotBytes (hslots : EndToEnd 0 s.memslots) (honly : MemslotsOnly host)
    (hsteady : SteadyMemory host s) (gpa : U64) {size : Nat} (hsize : 0 < size) :
    (vmiReadPhysical host s gpa size).bytes? = readBytes (memslotByte host s) gpa size := by
  have hpath : (vmiReadPhysical host s gpa size).bytes? = (readViaMemslots host s gpa size).bytes? := by
    cases hok : (readViaMemslots host s gpa size).ok with
    | true => rw [vmiReadPhysical_of_memslots hok]
    | false =>
      rw [vmiReadPhysical_of_failure (by omega) hok (honly gpa size hsize), ReadResult.bytes?, ReadResult.bytes?, hok]
      rfl
  rw [hpath, readViaMemslots]
  split
  next hempty =>
    have hnone : memslotByte host s gpa = none := by
      rw [memslotByte, findMemslot, hempty.resolve_left (by omega)]
      rfl
    rw [readBytes_eq_none (i := 0) hsize (by simpa using hnone)]
    rfl
  · rw [readMemslotsLoop_bytes hslots hsteady gpa size size [] (Nat.zero_le size) (by simp)]
    simp

/-- So it is the read of every byte by itself. -/
theorem vmiReadPhysical_bytes (hslots : EndToEnd 0 s.memslots) (honly : MemslotsOnly host)
    (hsteady : SteadyMemory host s) (gpa : U64) {size : Nat} (hsize : 0 < size) :
    (vmiReadPhysical host s gpa size).bytes? = readBytes (readByte host s) gpa size := by
  rw [vmiReadPhysical_memslotBytes hslots honly hsteady gpa hsize]
  apply readBytes_congr
  intro i _
  rw [readByte, vmiReadPhysical_memslotBytes hslots honly hsteady _ Nat.one_pos, readBytes, readBytes]
  cases memslotByte host s (gpa + BitVec.ofNat 64 i) <;> rfl

/-! Pages. -/

theorem toNat_pageOffset (gva : U64) : (gva &&& 0xFFF).toNat = gva.toNat % 2 ^ 12 := by
  rw [BitVec.toNat_and, ← Nat.and_two_pow_sub_one_eq_mod]
  rfl

/-- The bytes behind an address, up to the end of its 4 KB page, are in whatever page it is in. -/
theorem samePage_of_lt (size : PageSize) {gva : U64} {i : Nat} (hi : i < vmiPageSize - (gva &&& 0xFFF).toNat) :
    SamePage size gva (gva + BitVec.ofNat 64 i) := by
  rw [toNat_pageOffset, vmiPageSize] at hi
  have hsmall : gva >>> 12 = (gva + BitVec.ofNat 64 i) >>> 12 := by
    have hlt := gva.isLt
    apply BitVec.eq_of_toNat_eq
    rw [BitVec.toNat_ushiftRight, BitVec.toNat_ushiftRight, BitVec.toNat_add, BitVec.toNat_ofNat,
      Nat.shiftRight_eq_div_pow, Nat.shiftRight_eq_div_pow]
    omega
  exact shift_congr hsmall (by cases size <;> decide)

/-- One translation serves the page. -/
theorem vmiGvaToGpa_page {cr3 gva gpa : U64} (h : vmiGvaToGpa host s cr3 gva = some gpa) {i : Nat}
    (hi : i < vmiPageSize - (gva &&& 0xFFF).toNat) :
    vmiGvaToGpa host s cr3 (gva + BitVec.ofNat 64 i) = some (gpa + BitVec.ofNat 64 i) := by
  obtain ⟨⟨size, entry⟩, hwalk, -⟩ := Option.map_eq_some_iff.mp h
  have hlt : i < 2 ^ 32 := by
    rw [vmiPageSize] at hi
    omega
  obtain ⟨gpa', hgpa', hsum⟩ := vmiGvaToGpa_samePage hwalk h hlt (samePage_of_lt size hi)
  rw [hgpa', Option.some.injEq]
  apply BitVec.eq_of_toNat_eq
  have hbound := gpa'.isLt
  rw [BitVec.toNat_add, BitVec.toNat_ofNat, hsum]
  omega

theorem readVirtualLoop_bytes (hslots : EndToEnd 0 s.memslots) (honly : MemslotsOnly host)
    (hsteady : SteadyMemory host s) (cr3 : U64) (size fuel : Nat) (gva : U64) (buf : List U8) (hlen : buf.length ≤ size)
    (hfuel : size - buf.length ≤ fuel) :
    (readVirtualLoop host s cr3 size fuel gva buf).bytes? =
      (readBytes (readVirtualByte host s cr3) gva (size - buf.length)).map (buf ++ ·) := by
  induction fuel generalizing gva buf with
  | zero =>
    rw [readVirtualLoop, show size - buf.length = 0 by omega]
    simp [ReadResult.bytes?, readBytes, show size ≤ buf.length by omega]
  | succ fuel ih =>
    rw [readVirtualLoop]
    split
    next hlt =>
      obtain ⟨m, hm⟩ : ∃ m, size - buf.length = m + 1 := ⟨size - buf.length - 1, by omega⟩
      dsimp only
      split
      next hgpa =>
        rw [hm, readBytes, readVirtualByte, hgpa]
        rfl
      next gpa hgpa =>
        have hpos : 0 < vmiPageSize - (gva &&& 0xFFF).toNat := by
          rw [toNat_pageOffset, vmiPageSize]
          omega
        have hchunk : (vmiReadPhysical host s gpa (min (size - buf.length) (vmiPageSize - (gva &&& 0xFFF).toNat))).bytes? =
            readBytes (readVirtualByte host s cr3) gva (min (size - buf.length) (vmiPageSize - (gva &&& 0xFFF).toNat)) := by
          rw [vmiReadPhysical_bytes hslots honly hsteady gpa (by omega)]
          apply readBytes_congr
          intro i hi
          rw [readVirtualByte, vmiGvaToGpa_page hgpa (by omega), Option.bind_some]
        apply chunk_bytes (Nat.min_le_left _ _) hchunk
        intro hbuf
        rw [ih _ _ (by rw [List.length_append]; omega) (by rw [List.length_append]; omega), List.length_append, hbuf,
          Nat.sub_add_eq]
    next hlt =>
      rw [show size - buf.length = 0 by omega]
      simp [ReadResult.bytes?, readBytes]

end

/-- **Virtual reads are bytewise.** -/
theorem read_virtual_eq_bytewise (maps : Option (List U8)) (allocated : Bool) (s : VmiSession) (host : Host)
    (honly : MemslotsOnly host) (hsteady : SteadyMemory host (enumerateMemslots maps allocated s)) (cr3 gva : U64)
    (size : Nat) (hsize : 0 < size) :
    (vmiReadVirtual host (enumerateMemslots maps allocated s) cr3 gva size).bytes? =
      readBytes (readVirtualByte host (enumerateMemslots maps allocated s) cr3) gva size := by
  have hslots := enumerateMemslots_endToEnd maps allocated s
  rw [vmiReadVirtual, if_neg (by omega),
    readVirtualLoop_bytes hslots honly hsteady cr3 size size gva [] (Nat.zero_le size) (by simp)]
  simp

/-! A guest of 2 MB, every page-table entry of which is `0x81`: a huge page at 0. -/

def ramMaps : List U8 := ascii "10000000-10200000 rw-s 00000000 00:01 7 /memfd:pc.ram" ++ [newline]

def ramSession : VmiSession := enumerateMemslots (some ramMaps) true ⟨[], 1, 0, 0, false, 0, 0⟩

def ramHost : Host where
  ownMemory := fun _ => 0
  qemuMemory := fun a => if a &&& 7 = 0 then 0x81 else 0
  processVmReadv := fun _ size _ => .moved size
  devMem := none

/-- A transfer whose first call moves everything succeeds. -/
theorem transfer_ok_of_moved {outcome : Nat → IoOutcome} {size : Nat} (h : outcome 0 = .moved size) (hsize : 0 < size)
    (memory : U64 → U8) (addr : U64) : (transfer outcome memory addr size).ok = true := by
  obtain ⟨n, rfl⟩ : ∃ n, size = n + 1 := ⟨size - 1, by omega⟩
  have hfuel : (vmiIoRetryMax + 1) * (n + 1) = 4 * n + 2 + 1 + 1 := by
    rw [vmiIoRetryMax]
    omega
  rw [transfer, hfuel, transferLoop, if_pos (by simp), h]
  show (transferLoop outcome memory addr (n + 1) (4 * n + 2 + 1) 1 0
    (bytesAt memory (addr + BitVec.ofNat 64 0) (min (n + 1) (n + 1 - 0)))).ok = true
  rw [transferLoop, if_neg (by simp [length_bytesAt])]

theorem ramHost_steady : SteadyMemory ramHost ramSession := by
  have hok : ∀ addr size, 0 < size → (readRemoteProcess ramHost ramSession addr size).ok = true := by
    intro addr size hsize
    have hpid : ¬ ramSession.qemuPid ≤ 0 := by decide +kernel
    rw [readRemoteProcess, if_neg (by rw [not_or]; exact ⟨hpid, by omega⟩)]
    have hmoved : ramHost.processVmReadv addr size 0 = .moved size := rfl
    exact transfer_ok_of_moved hmoved hsize ramHost.qemuMemory addr
  intro addr size hsize
  exact iff_of_true (hok addr size hsize) fun i _ => hok _ 1 Nat.one_pos

/-- Two bytes on two pages. -/
theorem read_virtual_across_pages : (vmiReadVirtual ramHost ramSession 0 0xFFF 2).bytes? = some [0, 0x81] :=
  (read_virtual_eq_bytewise (some ramMaps) true ⟨[], 1, 0, 0, false, 0, 0⟩ ramHost (fun _ _ _ => rfl) ramHost_steady 0
    0xFFF 2 (by decide)).trans (by decide +kernel)

end SentinelStack.Vmi
