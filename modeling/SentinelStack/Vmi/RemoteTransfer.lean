import SentinelStack.Vmi.PhysicalRead

/- The transfer loop of `read_remote_process` over every schedule of
   `process_vm_readv` outcomes.

   The model's `transferLoop` carries fuel. `tracedLoop` is the same loop without
   an answer for the case that the fuel runs out, and with the number of calls
   beside the result: it always answers (`tracedLoop_returns`), so the fuel of
   `transfer` is never what ends a transfer.

   What a schedule does is read off the schedule alone: the bytes its first calls
   moved (`movedBefore`), and whether a call that comes before all bytes are moved
   ends the transfer (`Uninterrupted`). Main result: `readRemoteProcess_reassembles`. -/
namespace SentinelStack.Vmi
open SentinelStack.Lib

/-! The schedule. -/

/-- The bytes a call moved. -/
def IoOutcome.count : IoOutcome → Nat
  | .moved n => n
  | .transient => 0
  | .failed => 0

/-- The bytes moved by the calls before the `n`-th. -/
def movedBefore (outcome : Nat → IoOutcome) : Nat → Nat
  | 0 => 0
  | n + 1 => movedBefore outcome n + (outcome n).count

theorem movedBefore_mono (outcome : Nat → IoOutcome) : Monotone (movedBefore outcome) :=
  monotone_nat_of_le_succ fun _ => Nat.le_add_right _ _

theorem movedBefore_transient {outcome : Nat → IoOutcome} {start : Nat} :
    ∀ {n : Nat}, (∀ j < n, outcome (start + j) = .transient) →
      movedBefore outcome (start + n) = movedBefore outcome start
  | 0, _ => rfl
  | n + 1, h => by
    rw [← Nat.add_assoc, movedBefore, h n (Nat.lt_succ_self n)]
    exact movedBefore_transient fun j hj => h j (Nat.lt_succ_of_lt hj)

/-- From the call `start` on and until `size` bytes are moved, no call moves nothing or fails
    for good, and no `VMI_IO_RETRY_MAX + 1` calls in a row fail transiently. -/
def UninterruptedFrom (outcome : Nat → IoOutcome) (size start : Nat) : Prop :=
  ∀ i, start ≤ i → movedBefore outcome i < size →
    outcome i ≠ .moved 0 ∧ outcome i ≠ .failed ∧ ¬ ∀ j < vmiIoRetryMax + 1, outcome (i + j) = .transient

/-- Nothing ends the transfer of `size` bytes early. -/
def Uninterrupted (outcome : Nat → IoOutcome) (size : Nat) : Prop := UninterruptedFrom outcome size 0

theorem uninterruptedFrom_done {outcome : Nat → IoOutcome} {size start : Nat}
    (h : size ≤ movedBefore outcome start) : UninterruptedFrom outcome size start := by
  intro i hi hlt
  have := movedBefore_mono outcome hi
  omega

/-- A run of transient failures that ends in a call which moves bytes interrupts nothing. -/
theorem uninterruptedFrom_moved {outcome : Nat → IoOutcome} {size start retries n : Nat}
    (hrun : ∀ j < retries, outcome (start + j) = .transient) (hretries : retries ≤ vmiIoRetryMax)
    (hmoved : outcome (start + retries) = .moved (n + 1)) :
    UninterruptedFrom outcome size start ↔ UninterruptedFrom outcome size (start + retries + 1) := by
  refine ⟨fun h i hi => h i (by omega), fun h i hi hlt => ?_⟩
  rcases Nat.lt_or_ge (start + retries) i with hafter | hwithin
  · exact h i hafter hlt
  -- the window of the call `i` of the run reaches the call that moves bytes
  have hwindow : ¬ ∀ j < vmiIoRetryMax + 1, outcome (i + j) = .transient := by
    intro hall
    have hj := hall (start + retries - i) (by omega)
    rw [Nat.add_sub_of_le hwithin, hmoved] at hj
    cases hj
  rcases Nat.eq_or_lt_of_le hwithin with rfl | hbefore
  · rw [hmoved]
    exact ⟨by simp, by simp, hwindow⟩
  · have hi' := hrun (i - start) (by omega)
    rw [Nat.add_sub_of_le hi] at hi'
    rw [hi']
    exact ⟨by simp, by simp, hwindow⟩

/-! The calls of a transfer. -/

/-- The loop with the number of its calls, and without a result where the fuel runs out. -/
def tracedLoop (outcome : Nat → IoOutcome) (memory : U64 → U8) (addr : U64) (size : Nat) :
    (fuel call retries : Nat) → (buf : List U8) → Option (ReadResult × Nat)
  | 0, call, _, buf => if buf.length < size then none else some (⟨true, buf⟩, call)
  | fuel + 1, call, retries, buf =>
    if buf.length < size then
      match outcome call with
      | .moved 0 => some (⟨false, buf⟩, call + 1)
      | .moved n =>
        tracedLoop outcome memory addr size fuel (call + 1) 0
          (buf ++ bytesAt memory (addr + BitVec.ofNat 64 buf.length) (min n (size - buf.length)))
      | .transient =>
        if retries < vmiIoRetryMax then
          tracedLoop outcome memory addr size fuel (call + 1) (retries + 1) buf
        else some (⟨false, buf⟩, call + 1)
      | .failed => some (⟨false, buf⟩, call + 1)
    else some (⟨true, buf⟩, call)

/-- The calls of `read_remote_process`, from the first one on. -/
def tracedRead (host : Host) (s : VmiSession) (remoteAddr : U64) (size fuel : Nat) : Option (ReadResult × Nat) :=
  if s.qemuPid ≤ 0 ∨ size = 0 then some (⟨false, []⟩, 0)
  else tracedLoop (host.processVmReadv remoteAddr size) host.qemuMemory remoteAddr size fuel 0 0 []

section Loop

variable {outcome : Nat → IoOutcome} {memory : U64 → U8} {addr : U64} {size : Nat}

/-- The calls a loop can still make: `VMI_IO_RETRY_MAX + 1` for each byte left, less the
    retries already used on the next one. -/
def callsLeft (size retries : Nat) (buf : List U8) : Nat := (vmiIoRetryMax + 1) * (size - buf.length) - retries

theorem callsLeft_transient {retries : Nat} {buf : List U8} (hlt : buf.length < size)
    (hretries : retries < vmiIoRetryMax) :
    callsLeft size (retries + 1) buf + 1 = callsLeft size retries buf := by
  simp only [callsLeft, vmiIoRetryMax] at *
  omega

theorem callsLeft_moved (memory : U64 → U8) (a : U64) {retries n : Nat} {buf : List U8} (hlt : buf.length < size)
    (hretries : retries ≤ vmiIoRetryMax) :
    callsLeft size 0 (buf ++ bytesAt memory a (min (n + 1) (size - buf.length))) + 1 ≤
      callsLeft size retries buf := by
  simp only [callsLeft, List.length_append, length_bytesAt, vmiIoRetryMax] at *
  omega

theorem callsLeft_pos {retries : Nat} {buf : List U8} (hlt : buf.length < size)
    (hretries : retries ≤ vmiIoRetryMax) : 0 < callsLeft size retries buf := by
  simp only [callsLeft, vmiIoRetryMax] at *
  omega

/-- With no call left, all bytes are there. -/
theorem le_length_of_callsLeft {retries : Nat} {buf : List U8} (hretries : retries ≤ vmiIoRetryMax)
    (h : callsLeft size retries buf ≤ 0) : size ≤ buf.length := by
  rcases Nat.lt_or_ge buf.length size with hlt | hge
  · exact absurd (callsLeft_pos hlt hretries) (Nat.not_lt.mpr h)
  · exact hge

/-- With fuel for the calls left the loop returns, with the result of `transferLoop` and after
    no more calls than were left. -/
theorem tracedLoop_returns (fuel call retries : Nat) (buf : List U8) (hretries : retries ≤ vmiIoRetryMax)
    (hfuel : callsLeft size retries buf ≤ fuel) :
    ∃ calls, calls ≤ call + callsLeft size retries buf ∧
      tracedLoop outcome memory addr size fuel call retries buf =
        some (transferLoop outcome memory addr size fuel call retries buf, calls) := by
  induction fuel generalizing call retries buf with
  | zero =>
    have hdone := le_length_of_callsLeft hretries hfuel
    refine ⟨call, by omega, ?_⟩
    rw [tracedLoop, transferLoop, if_neg (Nat.not_lt.mpr hdone), decide_eq_true hdone]
  | succ fuel ih =>
    rw [tracedLoop, transferLoop]
    by_cases hlt : buf.length < size
    · have hpos := callsLeft_pos hlt hretries
      rw [if_pos hlt, if_pos hlt]
      cases outcome call with
      | moved n =>
        cases n with
        | zero => exact ⟨call + 1, by omega, rfl⟩
        | succ n =>
          have hmoved := callsLeft_moved memory (addr + BitVec.ofNat 64 buf.length) (n := n) hlt hretries
          obtain ⟨calls, hcalls, heq⟩ := ih (call + 1) 0 _ (Nat.zero_le _) (Nat.le_of_succ_le_succ (hmoved.trans hfuel))
          exact ⟨calls, by omega, heq⟩
      | transient =>
        simp only
        split
        · next hmore =>
          have htransient := callsLeft_transient hlt hmore
          obtain ⟨calls, hcalls, heq⟩ := ih (call + 1) (retries + 1) buf hmore (by omega)
          exact ⟨calls, by omega, heq⟩
        · exact ⟨call + 1, by omega, rfl⟩
      | failed => exact ⟨call + 1, by omega, rfl⟩
    · rw [if_neg hlt, if_neg hlt]
      exact ⟨call, by omega, rfl⟩

/-- More fuel does not change what the loop returned. -/
theorem tracedLoop_more {fuel call retries : Nat} {buf : List U8} {r : ReadResult × Nat}
    (h : tracedLoop outcome memory addr size fuel call retries buf = some r) :
    tracedLoop outcome memory addr size (fuel + 1) call retries buf = some r := by
  induction fuel generalizing call retries buf with
  | zero =>
    rw [tracedLoop] at h
    rw [tracedLoop.eq_2]
    split at h
    · cases h
    · next hdone => rw [if_neg hdone]; exact h
  | succ fuel ih =>
    rw [tracedLoop.eq_2] at h ⊢
    split at h
    · next hlt =>
      rw [if_pos hlt]
      cases ho : outcome call with
      | moved n =>
        rw [ho] at h
        cases n with
        | zero => exact h
        | succ n => exact ih h
      | transient =>
        rw [ho] at h
        simp only at h ⊢
        split at h
        · next hmore => rw [if_pos hmore]; exact ih h
        · next hmore => rw [if_neg hmore]; exact h
      | failed => rw [ho] at h; exact h
    · next hdone => rw [if_neg hdone]; exact h

theorem tracedLoop_le {fuel fuel' call retries : Nat} {buf : List U8} {r : ReadResult × Nat}
    (h : tracedLoop outcome memory addr size fuel call retries buf = some r) (hle : fuel ≤ fuel') :
    tracedLoop outcome memory addr size fuel' call retries buf = some r := by
  induction hle with
  | refl => exact h
  | step _ ih => exact tracedLoop_more ih

/-- The loop succeeds exactly where the rest of the schedule does not interrupt it. The calls
    from `start` on are the failed tries for the next byte. -/
theorem transferLoop_ok_iff (fuel start retries : Nat) (buf : List U8)
    (hlen : buf.length = min size (movedBefore outcome start))
    (hrun : ∀ j < retries, outcome (start + j) = .transient) (hretries : retries ≤ vmiIoRetryMax)
    (hfuel : callsLeft size retries buf ≤ fuel) :
    (transferLoop outcome memory addr size fuel (start + retries) retries buf).ok = true ↔
      UninterruptedFrom outcome size start := by
  induction fuel generalizing start retries buf with
  | zero =>
    have hdone := le_length_of_callsLeft hretries hfuel
    rw [transferLoop]
    exact iff_of_true (decide_eq_true hdone) (uninterruptedFrom_done (by omega))
  | succ fuel ih =>
    rw [transferLoop]
    split
    · next hlt =>
      -- the tries moved nothing, so the next call still comes before all bytes are moved
      have hmoved := movedBefore_transient hrun
      have hstill : movedBefore outcome (start + retries) < size := by omega
      have hnext : start ≤ start + retries := Nat.le_add_right _ _
      cases ho : outcome (start + retries) with
      | moved n =>
        cases n with
        | zero => exact iff_of_false (by simp) fun h => (h _ hnext hstill).1 ho
        | succ n =>
          rw [uninterruptedFrom_moved hrun hretries ho]
          have hleft := callsLeft_moved memory (addr + BitVec.ofNat 64 buf.length) (n := n) hlt hretries
          refine ih (start + retries + 1) 0 _ ?_ (by simp) (Nat.zero_le _) (by omega)
          rw [List.length_append, length_bytesAt, movedBefore, ho, hmoved, IoOutcome.count]
          omega
      | transient =>
        have hrun' : ∀ j < retries + 1, outcome (start + j) = .transient := fun j hj => by
          rcases Nat.lt_succ_iff_lt_or_eq.mp hj with hj | rfl
          · exact hrun j hj
          · exact ho
        simp only
        split
        · next hmore =>
          have hleft := callsLeft_transient hlt hmore
          exact ih start (retries + 1) buf hlen hrun' hmore (by omega)
        · next hmore =>
          have heq : retries = vmiIoRetryMax := by omega
          subst heq
          exact iff_of_false (by simp) fun h => (h start (Nat.le_refl _) (by omega)).2.2 hrun'
      | failed => exact iff_of_false (by simp) fun h => (h _ hnext hstill).2.1 ho
    · next hnot => exact iff_of_true rfl (uninterruptedFrom_done (by omega))

end Loop

/-! The read. -/

theorem callsLeft_nil (size : Nat) : callsLeft size 0 [] = (vmiIoRetryMax + 1) * size := rfl

theorem transfer_ok_iff (outcome : Nat → IoOutcome) (memory : U64 → U8) (addr : U64) (size : Nat) :
    (transfer outcome memory addr size).ok = true ↔ Uninterrupted outcome size :=
  transferLoop_ok_iff _ 0 0 [] (by simp [movedBefore]) (by simp) (Nat.zero_le _) (Nat.le_of_eq (callsLeft_nil size))

/-- **Remote reads reassemble exactly.** Whatever the calls of the host return, the read is over
    after at most four calls a byte. It succeeds if and only if there is a QEMU process to read
    from and, before all bytes are moved, no call moves nothing or fails for good and no four
    calls in a row fail transiently; and then the buffer holds the bytes of the range, however
    they were split. -/
theorem readRemoteProcess_reassembles (host : Host) (s : VmiSession) (addr : U64) (size : Nat) (hsize : 0 < size) :
    (∃ calls ≤ 4 * size, ∀ fuel ≥ 4 * size,
      tracedRead host s addr size fuel = some (readRemoteProcess host s addr size, calls)) ∧
    ((readRemoteProcess host s addr size).ok = true ↔
      0 < s.qemuPid ∧ Uninterrupted (host.processVmReadv addr size) size) ∧
    ((readRemoteProcess host s addr size).ok = true →
      (readRemoteProcess host s addr size).buf = bytesAt host.qemuMemory addr size) := by
  refine ⟨?_, ?_, fun hok => ?_⟩
  · unfold tracedRead readRemoteProcess
    split
    · exact ⟨0, Nat.zero_le _, fun _ _ => rfl⟩
    · obtain ⟨calls, hcalls, htraced⟩ := tracedLoop_returns ((vmiIoRetryMax + 1) * size) 0 0 []
        (Nat.zero_le _) (Nat.le_of_eq (callsLeft_nil size))
      rw [callsLeft_nil, Nat.zero_add] at hcalls
      exact ⟨calls, hcalls, fun fuel hfuel => tracedLoop_le htraced hfuel⟩
  · rw [readRemoteProcess]
    split
    · next hnone => exact iff_of_false (by simp) fun h => by omega
    · next hsome => rw [transfer_ok_iff, and_iff_right (by omega)]
  · have hserves := readRemoteProcess_serves host s addr size
    rw [eq_bytesAt hserves.bytes, hserves.complete hok]

/-- A host whose calls move two bytes, fail transiently three times and move the rest. -/
def stutteringHost : Host :=
  ⟨fun _ => 0, fun a => a.setWidth 8, fun _ _ call => if call = 0 then .moved 2 else if call < 4 then .transient else .moved 3,
    none⟩

theorem readRemoteProcess_reassembles_stuttering :
    0 < 5 ∧ (readRemoteProcess stutteringHost unmappedSession 0x7e 5).ok = true ∧
      (readRemoteProcess stutteringHost unmappedSession 0x7e 5).buf = [0x7e, 0x7f, 0x80, 0x81, 0x82] :=
  have hok : (readRemoteProcess stutteringHost unmappedSession 0x7e 5).ok = true := by decide +kernel
  ⟨by decide, hok, (readRemoteProcess_reassembles stutteringHost unmappedSession 0x7e 5 (by decide)).2.2 hok⟩

end SentinelStack.Vmi
