import SentinelStack.Vmi.VirtualRead

/- Writes through the memslot table (`write_via_memslots`), next to the reads.

   To the caller the table makes the mappings of the QEMU process one memory from
   guest-physical address 0 on, of the size of all slots (`guestMemory`). A read is
   a slice of that memory (`readViaMemslots_eq`), and a write changes it as a write
   to one memory would (`writeMemslotsLoop_spec`), although both go slot by slot.
   Main result: `memslot_write_read` — a write succeeds if and only if its range is
   inside; then a read of the range returns the bytes written, and every read next
   to it returns what it returned before. -/
namespace SentinelStack.Vmi
open SentinelStack.Lib

/-! The code. -/

/-- A write: whether it returned 0, and the host after it. -/
structure WriteResult where
  ok : Bool
  host : Host

/-- `process_vm_writev`: the outcome of the `call`-th call of a transfer. -/
abbrev ProcessVmWritev : Type := (remoteAddr : U64) → (size call : Nat) → IoOutcome

/-- The loop of `write_remote_process`: as that of a read, with `done` bytes written. -/
def writeTransferLoop (outcome : Nat → IoOutcome) (addr : U64) (buf : List U8) :
    (fuel call retries done : Nat) → (memory : U64 → U8) → Bool × (U64 → U8)
  | 0, _, _, done, memory => (buf.length ≤ done, memory)
  | fuel + 1, call, retries, done, memory =>
    if done < buf.length then
      match outcome call with
      | .moved 0 => (false, memory)
      | .moved n =>
        let n := min n (buf.length - done)
        writeTransferLoop outcome addr buf fuel (call + 1) 0 (done + n)
          (poke memory (addr + BitVec.ofNat 64 done) ((buf.drop done).take n))
      | .transient =>
        if retries < vmiIoRetryMax then writeTransferLoop outcome addr buf fuel (call + 1) (retries + 1) done memory
        else (false, memory)
      | .failed => (false, memory)
    else (true, memory)

def writeRemoteProcess (writev : ProcessVmWritev) (host : Host) (s : VmiSession) (remoteAddr : U64) (buf : List U8) :
    WriteResult :=
  if s.qemuPid ≤ 0 ∨ buf = [] then ⟨false, host⟩
  else
    let r := writeTransferLoop (writev remoteAddr buf.length) remoteAddr buf ((vmiIoRetryMax + 1) * buf.length) 0 0 0
      host.qemuMemory
    ⟨r.1, { host with qemuMemory := r.2 }⟩

/-- One chunk of `write_via_memslots`: to the QEMU process, or to this one. -/
def writeSlot (writev : ProcessVmWritev) (host : Host) (s : VmiSession) (slot : VmiMemslot) (offset : U64)
    (chunk : List U8) : WriteResult :=
  let hostAddr := slot.userspaceAddr + offset
  if slot.flags &&& vmiMemslotFRemoteProcess ≠ 0 then writeRemoteProcess writev host s hostAddr chunk
  else ⟨true, { host with ownMemory := poke host.ownMemory hostAddr chunk }⟩

def writeMemslotsLoop (writev : ProcessVmWritev) (s : VmiSession) (gpa : U64) (buf : List U8) :
    (fuel done : Nat) → (host : Host) → WriteResult
  | 0, done, host => ⟨buf.length ≤ done, host⟩
  | fuel + 1, done, host =>
    if done < buf.length then
      match findMemslot s (gpa + BitVec.ofNat 64 done) with
      | none => ⟨false, host⟩
      | some (slot, offset) =>
        let available := slot.memorySize - offset
        let chunk := min (buf.length - done) available.toNat
        let r := writeSlot writev host s slot offset ((buf.drop done).take chunk)
        if r.ok then writeMemslotsLoop writev s gpa buf fuel (done + chunk) r.host else ⟨false, r.host⟩
    else ⟨true, host⟩

/-- The loop moves at least one byte a turn. -/
def writeViaMemslots (writev : ProcessVmWritev) (host : Host) (s : VmiSession) (gpa : U64) (buf : List U8) : WriteResult :=
  if buf = [] ∨ s.memslots = [] then ⟨false, host⟩ else writeMemslotsLoop writev s gpa buf buf.length 0 host

/-! What is assumed of the host. -/

/-- The calls of a transfer move all of its bytes, in however many parts. -/
def Completes (outcome : Nat → IoOutcome) (size : Nat) : Prop := (transfer outcome (fun _ => 0) 0 size).ok = true

/-- Every transfer to or from a part of a slot moves all of its bytes. -/
def SlotTransfersComplete (s : VmiSession) (call : U64 → Nat → Nat → IoOutcome) : Prop :=
  ∀ slot ∈ s.memslots, ∀ offset size, 0 < size → offset + size ≤ slot.memorySize.toNat →
    Completes (call (slot.userspaceAddr + BitVec.ofNat 64 offset) size) size

/-- No address is in both of the ranges `[a, a + n)` and `[b, b + m)`, taken without wrap-around. -/
def Apart (a n b m : Nat) : Prop := ∀ x, a ≤ x → x < a + n → b ≤ x → ¬ x < b + m

/-! Transfers. -/

/-- Whether a transfer succeeds is up to its calls alone. -/
theorem transferLoop_ok_congr {outcome : Nat → IoOutcome} {memory memory' : U64 → U8} {addr addr' : U64} {size : Nat}
    (fuel call retries : Nat) {buf buf' : List U8} (h : buf.length = buf'.length) :
    (transferLoop outcome memory addr size fuel call retries buf).ok =
      (transferLoop outcome memory' addr' size fuel call retries buf').ok := by
  induction fuel generalizing call retries buf buf' with
  | zero => rw [transferLoop, transferLoop, h]
  | succ fuel ih =>
    rw [transferLoop, transferLoop, h]
    split
    · split
      · rfl
      · exact ih _ _ (by simp only [List.length_append, length_bytesAt, h])
      · split
        · exact ih _ _ h
        · rfl
      · rfl
    · rfl

theorem transfer_ok_of_completes {outcome : Nat → IoOutcome} {size : Nat} (h : Completes outcome size)
    (memory : U64 → U8) (addr : U64) : (transfer outcome memory addr size).ok = true :=
  (transferLoop_ok_congr _ 0 0 rfl).trans h

/-- The loop that writes goes as the loop that reads, and has written what it counts. -/
theorem writeTransferLoop_spec (outcome : Nat → IoOutcome) (addr : U64) {buf : List U8} (hlen : buf.length ≤ 2 ^ 64)
    (memory₀ : U64 → U8) (fuel call retries : Nat) {done : Nat} {memory : U64 → U8} {moved : List U8}
    (hdone : done ≤ buf.length) (hmoved : moved.length = done) (hmemory : memory = poke memory₀ addr (buf.take done)) :
    (writeTransferLoop outcome addr buf fuel call retries done memory).1 =
        (transferLoop outcome (fun _ => 0) 0 buf.length fuel call retries moved).ok ∧
      ((writeTransferLoop outcome addr buf fuel call retries done memory).1 = true →
        (writeTransferLoop outcome addr buf fuel call retries done memory).2 = poke memory₀ addr buf) := by
  induction fuel generalizing call retries done memory moved with
  | zero =>
    rw [writeTransferLoop, transferLoop, hmoved]
    refine ⟨rfl, fun h => ?_⟩
    rw [hmemory, List.take_of_length_le (of_decide_eq_true h)]
  | succ fuel ih =>
    rw [writeTransferLoop, transferLoop, hmoved]
    split
    next hlt =>
      have hfail : (false, memory).1 = true → (false, memory).2 = poke memory₀ addr buf :=
        fun h => absurd h Bool.false_ne_true
      cases outcome call with
      | moved n =>
        cases n with
        | zero => exact ⟨rfl, hfail⟩
        | succ n =>
          -- the part moved goes behind the parts before it, and the retries start over
          apply ih
          · omega
          · rw [List.length_append, length_bytesAt, hmoved]
          · have htake : (buf.take done).length = done := by
              rw [List.length_take]
              omega
            rw [List.take_add, ← poke_append, htake, hmemory]
            rw [htake, List.length_take, List.length_drop]
            omega
      | transient =>
        dsimp only
        split
        · exact ih _ _ hdone hmoved hmemory
        · exact ⟨rfl, hfail⟩
      | failed => exact ⟨rfl, hfail⟩
    next hge =>
      refine ⟨rfl, fun _ => ?_⟩
      rw [hmemory, List.take_of_length_le (by omega)]

theorem readRemoteProcess_eq {host : Host} {s : VmiSession} (hpid : 0 < s.qemuPid) {addr : U64} {size : Nat}
    (hsize : 0 < size) (h : Completes (host.processVmReadv addr size) size) :
    readRemoteProcess host s addr size = ⟨true, bytesAt host.qemuMemory addr size⟩ := by
  have hserves := readRemoteProcess_serves host s addr size
  have hok : (readRemoteProcess host s addr size).ok = true := by
    rw [readRemoteProcess, if_neg (by omega)]
    exact transfer_ok_of_completes h _ _
  have hbuf := eq_bytesAt hserves.bytes
  rw [hserves.complete hok] at hbuf
  rw [← hbuf, ← hok]

theorem writeRemoteProcess_eq {writev : ProcessVmWritev} {host : Host} {s : VmiSession} (hpid : 0 < s.qemuPid)
    {addr : U64} {buf : List U8} (hne : buf ≠ []) (hlen : buf.length ≤ 2 ^ 64)
    (h : Completes (writev addr buf.length) buf.length) :
    writeRemoteProcess writev host s addr buf = ⟨true, { host with qemuMemory := poke host.qemuMemory addr buf }⟩ := by
  have hnil : ([] : List U8).length = 0 := rfl
  obtain ⟨hok, hmemory⟩ := writeTransferLoop_spec (writev addr buf.length) addr hlen host.qemuMemory
    ((vmiIoRetryMax + 1) * buf.length) 0 0 (Nat.zero_le _) hnil (poke_nil host.qemuMemory addr).symm
  have hdone := hok.trans h
  rw [writeRemoteProcess, if_neg (not_or.mpr ⟨by omega, hne⟩)]
  dsimp only
  rw [hdone, hmemory hdone]

/-! One memory over all slots. -/

/-- Where in the host a guest-physical address is. -/
def hostAddr (s : VmiSession) (gpa : U64) : U64 :=
  match findMemslot s gpa with
  | none => 0
  | some (slot, offset) => slot.userspaceAddr + offset

/-- The guest's memory, as far as slots map it. -/
def guestMemory (host : Host) (s : VmiSession) (gpa : U64) : U8 := host.qemuMemory (hostAddr s gpa)

/-- The read that has `buf` behind it, against the guest's memory: it takes what is left of the
    range, up to the end of the span, and succeeds if that is all of it. -/
def readSpan (host : Host) (s : VmiSession) (gpa : U64) (size : Nat) (buf : List U8) : ReadResult :=
  ⟨gpa.toNat + size ≤ slotsEnd 0 s.memslots,
    buf ++ bytesAt (guestMemory host s) (gpa + BitVec.ofNat 64 buf.length)
      (min (size - buf.length) (slotsEnd 0 s.memslots - (gpa.toNat + buf.length)))⟩

section
variable {host : Host} {s : VmiSession} {gpa : U64} {size : Nat} {buf : List U8}

theorem readSpan_full (hfull : size ≤ buf.length) (hfits : gpa.toNat + size ≤ slotsEnd 0 s.memslots) :
    readSpan host s gpa size buf = ⟨true, buf⟩ := by
  rw [readSpan, decide_eq_true hfits, Nat.sub_eq_zero_of_le hfull, Nat.zero_min, bytesAt, List.range_zero, List.map_nil,
    List.append_nil]

theorem readSpan_beyond (hlt : buf.length < size) (hend : slotsEnd 0 s.memslots ≤ gpa.toNat + buf.length) :
    readSpan host s gpa size buf = ⟨false, buf⟩ := by
  rw [readSpan, decide_eq_false (by omega), Nat.sub_eq_zero_of_le hend, Nat.min_zero, bytesAt, List.range_zero,
    List.map_nil, List.append_nil]

/-- A chunk of it is read first. -/
theorem readSpan_grown {chunk : Nat} (hchunk : chunk ≤ size - buf.length)
    (hend : gpa.toNat + buf.length + chunk ≤ slotsEnd 0 s.memslots) :
    readSpan host s gpa size (buf ++ bytesAt (guestMemory host s) (gpa + BitVec.ofNat 64 buf.length) chunk) =
      readSpan host s gpa size buf := by
  have hsplit : min (size - buf.length) (slotsEnd 0 s.memslots - (gpa.toNat + buf.length)) =
      chunk + min (size - (buf.length + chunk)) (slotsEnd 0 s.memslots - (gpa.toNat + (buf.length + chunk))) := by
    omega
  rw [readSpan, readSpan, List.length_append, length_bytesAt, hsplit, bytesAt_add, List.append_assoc, BitVec.ofNat_add,
    BitVec.add_assoc]

end

section
variable {s : VmiSession} (hslots : EndToEnd 0 s.memslots)
include hslots

theorem hostAddr_eq {slot : VmiMemslot} (hmem : slot ∈ s.memslots) {gpa : U64} (hmaps : slot.Maps gpa) :
    hostAddr s gpa = slot.userspaceAddr + (gpa - slot.guestPhysAddr) := by
  rw [hostAddr, findMemslot_eq hslots hmem hmaps]

/-- What one pass of either loop has: a slot, and room in it up to its end. -/
theorem findMemslot_room {gpa offset : U64} {slot : VmiMemslot} (h : findMemslot s gpa = some (slot, offset)) :
    slot ∈ s.memslots ∧ slot.Maps gpa ∧ offset = gpa - slot.guestPhysAddr ∧
      0 < (slot.memorySize - (gpa - slot.guestPhysAddr)).toNat ∧
      gpa.toNat + (slot.memorySize - (gpa - slot.guestPhysAddr)).toNat ≤ slotsEnd 0 s.memslots := by
  obtain ⟨hmem, hmaps, hoffset⟩ := findMemslot_some h
  have hend := hslots.mem_end hmem
  obtain ⟨hlo, hhi, -⟩ := hmaps.toNat
  rw [hmaps.toNat_available]
  exact ⟨hmem, hmaps, hoffset, by omega, by omega⟩

variable (hpid : 0 < s.qemuPid)
include hpid

/-- A chunk within a slot is read as it is in the guest's memory. -/
theorem readSlot_eq {host : Host} (hread : SlotTransfersComplete s host.processVmReadv) {slot : VmiMemslot}
    (hmem : slot ∈ s.memslots) {gpa : U64} (hmaps : slot.Maps gpa) {chunk : Nat} (hpos : 0 < chunk)
    (hchunk : chunk ≤ (slot.memorySize - (gpa - slot.guestPhysAddr)).toNat) :
    readSlot host s slot (gpa - slot.guestPhysAddr) chunk = ⟨true, bytesAt (guestMemory host s) gpa chunk⟩ := by
  have havail := hmaps.toNat_available
  have hoffset := hmaps.toNat_offset
  have hhi := hmaps.toNat.2.1
  have hcalls := hread slot hmem (gpa - slot.guestPhysAddr).toNat chunk hpos (by omega)
  rw [ofNat_toNat_add] at hcalls
  rw [readSlot, if_pos (hslots.remote hmem), readRemoteProcess_eq hpid hpos hcalls]
  congr 1
  unfold bytesAt
  apply List.map_congr_left
  intro i hi
  have hi := List.mem_range.mp hi
  rw [guestMemory, hostAddr_eq hslots hmem (hmaps.add (by omega)), slot_addr_add]

/-- A chunk within a slot is written as it is to the guest's memory, and to no other slot. -/
theorem writeSlot_spec (hapart : SlotsApart s.memslots) {writev : ProcessVmWritev} (hwrite : SlotTransfersComplete s writev)
    (host : Host) {slot : VmiMemslot} (hmem : slot ∈ s.memslots) {gpa : U64} (hmaps : slot.Maps gpa) {chunk : List U8}
    (hne : chunk ≠ []) (hchunk : chunk.length ≤ (slot.memorySize - (gpa - slot.guestPhysAddr)).toNat) :
    ∃ host', writeSlot writev host s slot (gpa - slot.guestPhysAddr) chunk = ⟨true, host'⟩ ∧
      host'.processVmReadv = host.processVmReadv ∧
      ∀ x : U64, x.toNat < slotsEnd 0 s.memslots → guestMemory host' s x = poke (guestMemory host s) gpa chunk x := by
  have havail := hmaps.toNat_available
  have hoffset := hmaps.toNat_offset
  have hhi := hmaps.toNat.2.1
  have hsize := slot.memorySize.isLt
  have hpos := List.length_pos_iff.mpr hne
  have hcalls := hwrite slot hmem (gpa - slot.guestPhysAddr).toNat chunk.length hpos (by omega)
  rw [ofNat_toNat_add] at hcalls
  refine ⟨{ host with qemuMemory := poke host.qemuMemory (slot.userspaceAddr + (gpa - slot.guestPhysAddr)) chunk },
    by rw [writeSlot, if_pos (hslots.remote hmem), writeRemoteProcess_eq hpid hne (by omega) hcalls], rfl, fun x hx => ?_⟩
  obtain ⟨slot', hmem', hmaps'⟩ := hslots.exists_maps (Nat.zero_le _) hx
  show poke host.qemuMemory _ chunk (hostAddr s x) = _
  by_cases hsame : slot' = slot
  · -- in one slot the distance is the same in the guest and in the host
    have haddr := hostAddr_eq hslots hmem' hmaps'
    rw [hsame] at haddr
    unfold poke
    rw [show hostAddr s x - (slot.userspaceAddr + (gpa - slot.guestPhysAddr)) = x - gpa by rw [haddr]; bv_omega]
    rfl
  · -- another slot's address is away from the chunk in the guest, as slots do not overlap, and in the host
    have haway : chunk.length ≤ (x - gpa).toNat := by
      apply le_toNat_sub
      rintro k hk rfl
      have hfound := (findMemslot_eq hslots hmem (hmaps.add (by omega))).symm.trans (findMemslot_eq hslots hmem' hmaps')
      rw [Option.some.injEq, Prod.mk.injEq] at hfound
      exact hsame hfound.1.symm
    have haway' : chunk.length ≤ (hostAddr s x - (slot.userspaceAddr + (gpa - slot.guestPhysAddr))).toNat := by
      apply le_toNat_sub
      intro k hk heq
      have hoffset' := hmaps'.toNat_offset
      obtain ⟨hlo', hhi', -⟩ := hmaps'.toNat
      apply hapart slot' hmem' slot hmem hsame (x - slot'.guestPhysAddr).toNat (by omega)
        ((gpa - slot.guestPhysAddr).toNat + k) (by omega)
      rw [ofNat_toNat_add, ← hostAddr_eq hslots hmem' hmaps', heq, BitVec.ofNat_add, ← BitVec.add_assoc, ofNat_toNat_add]
    rw [poke_elsewhere haway, poke_elsewhere haway']
    rfl

/-! Whole reads and writes. -/

/-- The loop of a read goes on to the end of the range or of the span. -/
theorem readMemslotsLoop_eq {host : Host} (hread : SlotTransfersComplete s host.processVmReadv) (gpa : U64) {size : Nat}
    (hsize : 0 < size) (fuel : Nat) (buf : List U8) (hlen : buf.length ≤ size) (hfuel : size - buf.length ≤ fuel)
    (hstart : buf.length = 0 ∨ gpa.toNat + buf.length ≤ slotsEnd 0 s.memslots) :
    readMemslotsLoop host s gpa size fuel buf = readSpan host s gpa size buf := by
  have hspan := hslots.end_lt (by decide)
  -- a chunk has at least one byte, so that the fuel covers what is left of the range
  induction fuel generalizing buf with
  | zero => rw [readMemslotsLoop, readSpan_full (by omega) (by omega), decide_eq_true (by omega)]
  | succ fuel ih =>
    rw [readMemslotsLoop]
    split
    next hlt =>
      have haddr : (gpa + BitVec.ofNat 64 buf.length).toNat = gpa.toNat + buf.length := toNat_add_ofNat (by omega)
      split
      next hnone =>
        rw [findMemslot_none_iff hslots, haddr] at hnone
        rw [readSpan_beyond (by omega) hnone]
      next slot offset hfind =>
        obtain ⟨hmem, hmaps, rfl, hroom, hend⟩ := findMemslot_room hslots hfind
        rw [haddr] at hend
        dsimp only
        generalize hc : min (size - buf.length)
          (slot.memorySize - (gpa + BitVec.ofNat 64 buf.length - slot.guestPhysAddr)).toNat = chunk
        rw [readSlot_eq hslots hpid hread hmem hmaps (by omega) (by omega)]
        dsimp only
        have hgrown : (buf ++ bytesAt (guestMemory host s) (gpa + BitVec.ofNat 64 buf.length) chunk).length =
            buf.length + chunk := by
          rw [List.length_append, length_bytesAt]
        rw [if_pos rfl, ih _ (by omega) (by omega) (by omega), readSpan_grown (by omega) (by omega)]
    next hge => rw [readSpan_full (by omega) (by omega)]

/-- **A read is a slice of the guest's memory**, cut at the end of the span. -/
theorem readViaMemslots_eq {host : Host} (hread : SlotTransfersComplete s host.processVmReadv) (gpa : U64) {size : Nat}
    (hsize : 0 < size) : readViaMemslots host s gpa size = readSpan host s gpa size [] := by
  rw [readViaMemslots]
  split
  next hempty =>
    have hnone := hempty.resolve_left (by omega)
    rw [readSpan_beyond (by exact hsize) (by rw [hnone]; exact Nat.zero_le _)]
  · exact readMemslotsLoop_eq hslots hpid hread gpa hsize size [] (Nat.zero_le _) (by simp) (Or.inl rfl)

/-- The loop of a write that has the first `done` bytes behind it. -/
theorem writeMemslotsLoop_spec (hapart : SlotsApart s.memslots) {writev : ProcessVmWritev}
    (hwrite : SlotTransfersComplete s writev) (gpa : U64) {buf : List U8} (hne : buf ≠ []) (fuel done : Nat) (host : Host)
    (hdone : done ≤ buf.length) (hfuel : buf.length - done ≤ fuel)
    (hstart : done = 0 ∨ gpa.toNat + done ≤ slotsEnd 0 s.memslots) :
    ((writeMemslotsLoop writev s gpa buf fuel done host).ok = true ↔
        gpa.toNat + buf.length ≤ slotsEnd 0 s.memslots) ∧
      (writeMemslotsLoop writev s gpa buf fuel done host).host.processVmReadv = host.processVmReadv ∧
      ((writeMemslotsLoop writev s gpa buf fuel done host).ok = true → ∀ x : U64, x.toNat < slotsEnd 0 s.memslots →
        guestMemory (writeMemslotsLoop writev s gpa buf fuel done host).host s x =
          poke (guestMemory host s) (gpa + BitVec.ofNat 64 done) (buf.drop done) x) := by
  have hspan := hslots.end_lt (by decide)
  have hpos := List.length_pos_iff.mpr hne
  have hfull : ∀ done host, buf.length ≤ done → ∀ x, guestMemory host s x =
      poke (guestMemory host s) (gpa + BitVec.ofNat 64 done) (buf.drop done) x := by
    intro done host hge x
    rw [List.drop_of_length_le hge, poke_nil]
  induction fuel generalizing done host with
  | zero =>
    rw [writeMemslotsLoop]
    exact ⟨by rw [decide_eq_true_iff]; omega, rfl, fun _ x _ => hfull done host (by omega) x⟩
  | succ fuel ih =>
    rw [writeMemslotsLoop]
    split
    next hlt =>
      have haddr : (gpa + BitVec.ofNat 64 done).toNat = gpa.toNat + done := toNat_add_ofNat (by omega)
      split
      next hnone =>
        rw [findMemslot_none_iff hslots, haddr] at hnone
        exact ⟨iff_of_false Bool.false_ne_true (by omega), rfl, fun h => absurd h Bool.false_ne_true⟩
      next slot offset hfind =>
        obtain ⟨hmem, hmaps, rfl, hroom, hend⟩ := findMemslot_room hslots hfind
        rw [haddr] at hend
        dsimp only
        generalize hc : min (buf.length - done)
          (slot.memorySize - (gpa + BitVec.ofNat 64 done - slot.guestPhysAddr)).toNat = chunk
        have hchunk : ((buf.drop done).take chunk).length = chunk := by
          rw [List.length_take, List.length_drop]
          omega
        obtain ⟨host', hwrote, hcalls, hview⟩ := writeSlot_spec hslots hpid hapart hwrite host hmem hmaps
          (List.ne_nil_of_length_pos (by omega : 0 < ((buf.drop done).take chunk).length)) (by omega)
        rw [hwrote]
        dsimp only
        rw [if_pos rfl]
        -- the chunk and what the rest of the loop writes are one write of both
        obtain ⟨hok, hcalls', hview'⟩ := ih (done + chunk) host' (by omega) (by omega) (by omega)
        refine ⟨hok, hcalls'.trans hcalls, fun h x hx => ?_⟩
        have hfits := hok.mp h
        have hrest : (buf.drop done).length = buf.length - done := List.length_drop
        have hparts := poke_take_drop (guestMemory host s) (gpa + BitVec.ofNat 64 done)
          (show chunk ≤ (buf.drop done).length by omega) (by omega)
        rw [hview' h x hx, poke_congr (hview x hx), ← hparts, List.drop_drop, BitVec.ofNat_add, BitVec.add_assoc]
    next hge => exact ⟨iff_of_true rfl (by omega), rfl, fun _ x _ => hfull done host (by omega) x⟩

/-- **A write is a write to the guest's memory.** -/
theorem writeViaMemslots_spec (hapart : SlotsApart s.memslots) {writev : ProcessVmWritev}
    (hwrite : SlotTransfersComplete s writev) (host : Host) (gpa : U64) {buf : List U8} (hne : buf ≠ []) :
    ((writeViaMemslots writev host s gpa buf).ok = true ↔ gpa.toNat + buf.length ≤ slotsEnd 0 s.memslots) ∧
      (writeViaMemslots writev host s gpa buf).host.processVmReadv = host.processVmReadv ∧
      ((writeViaMemslots writev host s gpa buf).ok = true → ∀ x : U64, x.toNat < slotsEnd 0 s.memslots →
        guestMemory (writeViaMemslots writev host s gpa buf).host s x = poke (guestMemory host s) gpa buf x) := by
  have hpos := List.length_pos_iff.mpr hne
  rw [writeViaMemslots]
  split
  next hempty =>
    rw [hempty.resolve_left hne]
    exact ⟨iff_of_false Bool.false_ne_true (by rw [slotsEnd, List.foldl_nil]; omega), rfl,
      fun h => absurd h Bool.false_ne_true⟩
  next =>
    have hloop := writeMemslotsLoop_spec hslots hpid hapart hwrite gpa hne buf.length 0 host (Nat.zero_le _) (by omega)
      (Or.inl rfl)
    rw [BitVec.add_zero, List.drop_zero] at hloop
    exact hloop

omit hpid

/-- A read of what was written. -/
theorem readSpan_poked {host host' : Host} {gpa : U64} {buf : List U8}
    (hfits : gpa.toNat + buf.length ≤ slotsEnd 0 s.memslots)
    (hview : ∀ x : U64, x.toNat < slotsEnd 0 s.memslots → guestMemory host' s x = poke (guestMemory host s) gpa buf x) :
    readSpan host' s gpa buf.length [] = ⟨true, buf⟩ := by
  have hspan := hslots.end_lt (by decide)
  have hslice : bytesAt (guestMemory host' s) gpa buf.length = buf := by
    apply List.ext_getElem (length_bytesAt ..)
    intro i hi hi'
    have haddr : (gpa + BitVec.ofNat 64 i).toNat = gpa.toNat + i := toNat_add_ofNat (by omega)
    rw [← poke_at hi' (by omega), ← hview _ (by omega)]
    simp [bytesAt]
  rw [readSpan, decide_eq_true hfits, List.length_nil, Nat.sub_zero, Nat.add_zero, Nat.min_eq_left (by omega),
    List.nil_append, BitVec.add_zero, hslice]

/-- A read apart from it. -/
theorem readSpan_apart {host host' : Host} {gpa gpa' : U64} {buf : List U8} {size' : Nat}
    (hfits : gpa.toNat + buf.length ≤ slotsEnd 0 s.memslots)
    (hview : ∀ x : U64, x.toNat < slotsEnd 0 s.memslots → guestMemory host' s x = poke (guestMemory host s) gpa buf x)
    (hrange : Apart gpa.toNat buf.length gpa'.toNat size') :
    readSpan host' s gpa' size' [] = readSpan host s gpa' size' [] := by
  have hspan := hslots.end_lt (by decide)
  rw [readSpan, readSpan]
  congr 2
  apply bytesAt_congr
  intro i hi
  rw [List.length_nil, BitVec.add_zero] at *
  have haddr : (gpa' + BitVec.ofNat 64 i).toNat = gpa'.toNat + i := toNat_add_ofNat (by omega)
  rw [hview _ (by omega)]
  apply poke_elsewhere
  have haway := hrange (gpa'.toNat + i)
  rw [BitVec.toNat_sub, haddr]
  omega

end

/-! Reads after a write. -/

/-- **Writes and reads through the memslots.** For every table made from a maps text with disjoint
    ranges, when the transfers within its slots move all of their bytes: a write succeeds exactly if
    its range ends within the span of the slots, a read of the range then returns it, and every
    read of a range apart from it returns what it returned before. -/
theorem memslot_write_read (text : List U8) (hdisjoint : RangesDisjoint text) (allocated : Bool) (s₀ : VmiSession)
    (hnonempty : (enumerateMemslots (some text) allocated s₀).memslots ≠ []) (host : Host)
    (hread : SlotTransfersComplete (enumerateMemslots (some text) allocated s₀) host.processVmReadv)
    (writev : ProcessVmWritev) (hwrite : SlotTransfersComplete (enumerateMemslots (some text) allocated s₀) writev)
    (gpa : U64) (buf : List U8) (hsize : buf ≠ []) :
    ((writeViaMemslots writev host (enumerateMemslots (some text) allocated s₀) gpa buf).ok = true ↔
        gpa.toNat + buf.length ≤ slotsEnd 0 (enumerateMemslots (some text) allocated s₀).memslots) ∧
      ((writeViaMemslots writev host (enumerateMemslots (some text) allocated s₀) gpa buf).ok = true →
        readViaMemslots (writeViaMemslots writev host (enumerateMemslots (some text) allocated s₀) gpa buf).host
            (enumerateMemslots (some text) allocated s₀) gpa buf.length = ⟨true, buf⟩ ∧
          ∀ (gpa' : U64) (size' : Nat), Apart gpa.toNat buf.length gpa'.toNat size' →
            readViaMemslots (writeViaMemslots writev host (enumerateMemslots (some text) allocated s₀) gpa buf).host
                (enumerateMemslots (some text) allocated s₀) gpa' size' =
              readViaMemslots host (enumerateMemslots (some text) allocated s₀) gpa' size') := by
  have hslots := enumerateMemslots_endToEnd (some text) allocated s₀
  have hapart := enumerateMemslots_apart hdisjoint allocated s₀
  have hpid := qemuPid_pos hnonempty
  generalize enumerateMemslots (some text) allocated s₀ = s at hslots hapart hpid hread hwrite ⊢
  obtain ⟨hok, hcalls, hview⟩ := writeViaMemslots_spec hslots hpid hapart hwrite host gpa hsize
  generalize writeViaMemslots writev host s gpa buf = r at hok hcalls hview ⊢
  have hread' : SlotTransfersComplete s r.host.processVmReadv := hcalls ▸ hread
  refine ⟨hok, fun hwritten => ⟨?_, fun gpa' size' hrange => ?_⟩⟩
  · have hfits := hok.mp hwritten
    rw [readViaMemslots_eq hslots hpid hread' gpa (List.length_pos_iff.mpr hsize)]
    exact readSpan_poked hslots hfits (hview hwritten)
  · by_cases hzero : size' = 0
    · rw [readViaMemslots, readViaMemslots, if_pos (Or.inl hzero), if_pos (Or.inl hzero)]
    · rw [readViaMemslots_eq hslots hpid hread' gpa' (by omega), readViaMemslots_eq hslots hpid hread gpa' (by omega)]
      exact readSpan_apart hslots (hok.mp hwritten) (hview hwritten) hrange

/-- Two mappings, not next to each other in the host. -/
def twoMaps : List U8 :=
  ascii "10000000-10200000 rw-s 00000000 00:01 7 /memfd:pc.ram\n20000000-20200000 rw-s 00200000 00:01 7 /memfd:pc.ram\n"

theorem twoMaps_disjoint : RangesDisjoint twoMaps := by
  have hlines : (fgetsLines 2048 twoMaps).filterMap scanMapsLine =
      [⟨0x10000000, 0x10200000, ascii "rw-s", ascii "/memfd:pc.ram"⟩,
        ⟨0x20000000, 0x20200000, ascii "rw-s", ascii "/memfd:pc.ram"⟩] := by
    decide +kernel
  rw [RangesDisjoint, hlines, List.pairwise_pair]
  intro a _ hstop hstart _
  dsimp only at hstop hstart
  bv_omega

def twoSession : VmiSession := enumerateMemslots (some twoMaps) true ⟨[], 1, 0, 0, false, 0, 0⟩

theorem twoSession_memslots :
    twoSession.memslots = [⟨0, 0x200000, 0x10000000, 0, 0x80000000⟩, ⟨0x200000, 0x200000, 0x20000000, 1, 0x80000000⟩] := by
  decide +kernel

theorem slotTransfersComplete_moved (s : VmiSession) : SlotTransfersComplete s fun _ size _ => .moved size := by
  intro slot _ offset size hpos _
  have hmoved : (fun _ : Nat => IoOutcome.moved size) 0 = .moved size := rfl
  exact transfer_ok_of_moved hmoved hpos _ _

/-- Two bytes, one in each mapping. -/
theorem write_across_slots :
    (writeViaMemslots (fun _ size _ => .moved size) ramHost twoSession 0x1FFFFF [1, 2]).ok = true ∧
      readViaMemslots (writeViaMemslots (fun _ size _ => .moved size) ramHost twoSession 0x1FFFFF [1, 2]).host twoSession
        0x1FFFFF 2 = ⟨true, [1, 2]⟩ := by
  have hspan : slotsEnd 0 twoSession.memslots = 0x400000 := by
    rw [twoSession_memslots]
    decide
  have hnonempty : twoSession.memslots ≠ [] := by
    rw [twoSession_memslots]
    exact List.cons_ne_nil _ _
  obtain ⟨hok, hafter⟩ := memslot_write_read twoMaps twoMaps_disjoint true ⟨[], 1, 0, 0, false, 0, 0⟩ hnonempty
    ramHost (slotTransfersComplete_moved _) (fun _ size _ => .moved size) (slotTransfersComplete_moved _) 0x1FFFFF [1, 2]
    (by decide)
  have hwritten := hok.mpr (by rw [← twoSession, hspan]; decide)
  exact ⟨hwritten, (hafter hwritten).1⟩

end SentinelStack.Vmi
