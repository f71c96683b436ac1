import SentinelStack.Lib.CTypes
import Mathlib.Order.Interval.Finset.Nat
import Mathlib.Data.Nat.Find

/- The `#GP` policy of the SMM supervisor (`PolicyCheckTrapHandler` and `InitPolicyTable`
   in `SentinelSmmDxe.c`): which trapped IN and OUT instructions it lets through.

   The handler tests the one port the instruction names. What the instruction accesses
   is said apart from it, by a decoder that knows prefixes and operand sizes
   (`ioAccess`): a 16- or 32-bit form reaches the one or three ports behind as well.
   Main results: `trap_policy_covers_iff` — a permitted access is covered by the I/O
   map exactly if it is not an unprefixed wide form that begins on an allowed port and
   reaches one that is not; `uncovered_of_allowed` — no policy that allows a port
   avoids such an instruction. -/
namespace SentinelStack.Smm
open SentinelStack.Lib

/-! The policy. -/

/-- A bit for each of the 65,536 ports. -/
abbrev IoAllowMap := Fin 8192 → U8

/-- The bit of a port. A port above `0xFFFF` has none. -/
def portAllowed (map : IoAllowMap) (port : Nat) : Bool :=
  if h : port / 8 < 8192 then map ⟨port / 8, h⟩ &&& (1 <<< (port % 8)) ≠ 0 else false

def allowPort (map : IoAllowMap) (port : BitVec 16) : IoAllowMap :=
  Function.update map ⟨port.toNat / 8, by omega⟩
    (map ⟨port.toNat / 8, by omega⟩ ||| (1 <<< (port.toNat % 8)))

/-- RTC and CMOS, and the ACPI control port of QEMU. -/
def initPolicyTable : IoAllowMap := allowPort (allowPort (allowPort (fun _ => 0) 0x70) 0x71) 0x400

/-- The list of the source is a placeholder. -/
def safeMsrList : List U32 := []

/-! The handler. -/

/-- The part of `SENTINEL_CPU_CONTEXT` the handler reads. -/
structure CpuContext where
  rcx : U64
  rdx : U64
  deriving DecidableEq, Repr

/-- `EFI_ACCESS_DENIED`, with the message logged. -/
inductive TrapDenied where
  | msr (rip : U64) (requestedMsr : U32)
  | immediateIo (rip : U64) (port : BitVec 16)
  | dxIo (rip : U64) (port : BitVec 16)
  | unknownOpcode (rip : U64) (byte0 byte1 : U8)
  deriving DecidableEq, Repr

/-- IN and OUT with the port in the instruction. -/
def isImmediateIo (opcode : U8) : Bool := opcode = 0xE4 ∨ opcode = 0xE5 ∨ opcode = 0xE6 ∨ opcode = 0xE7

/-- IN and OUT with the port in DX. -/
def isDxIo (opcode : U8) : Bool := opcode = 0xEC ∨ opcode = 0xED ∨ opcode = 0xEE ∨ opcode = 0xEF

def checkPort (map : IoAllowMap) (port : BitVec 16) (denied : TrapDenied) : Except TrapDenied Unit :=
  if portAllowed map port.toNat then .ok () else .error denied

/-- `PolicyCheckTrapHandler`. `instruction` are the bytes at the faulting RIP. -/
def policyCheckTrapHandler (map : IoAllowMap) (rip : U64) (instruction : Nat → U8) (context : CpuContext) :
    Except TrapDenied Unit :=
  if instruction 0 = 0x0F ∧ (instruction 1 = 0x32 ∨ instruction 1 = 0x30) then
    let requestedMsr := context.rcx.setWidth 32
    if safeMsrList.contains requestedMsr then .ok () else .error (.msr rip requestedMsr)
  else if isImmediateIo (instruction 0) then
    let port := (instruction 1).setWidth 16
    checkPort map port (.immediateIo rip port)
  else if isDxIo (instruction 0) then
    let port := context.rdx.setWidth 16
    checkPort map port (.dxIo rip port)
  else .error (.unknownOpcode rip (instruction 0) (instruction 1))

/-! What an instruction accesses. -/

/-- The operand size of the code segment. -/
inductive OperandSize where
  | word
  | dword
  deriving DecidableEq, Repr

def OperandSize.bytes : OperandSize → Nat
  | word => 2
  | dword => 4

/-- The size with the prefix `66`. -/
def OperandSize.other : OperandSize → OperandSize
  | word => dword
  | dword => word

/-- Prefixes that leave the operand size: segments, address size, repetition and REX. -/
def isNeutralOverride (byte : U8) : Bool :=
  [0x26, 0x2E, 0x36, 0x3E, 0x64, 0x65, 0x67, 0xF2, 0xF3].contains byte ∨ byte &&& 0xF0 = 0x40

/-- So many ports from the first one on. -/
structure IoAccess where
  first : BitVec 16
  width : Nat
  deriving DecidableEq, Repr

def IoAccess.ports (access : IoAccess) : List Nat := (List.range access.width).map (access.first.toNat + ·)

def isPlainIo (opcode : U8) : Bool := isImmediateIo opcode ∨ isDxIo opcode

/-- Odd opcodes are the wide forms. -/
def isWideIo (opcode : U8) : Bool := isPlainIo opcode ∧ opcode &&& 1 = 1

def accessWidth (opcode : U8) (size : OperandSize) : Nat := if isWideIo opcode then size.bytes else 1

/-- The access of the instruction at `pos`, with `left` bytes to the limit of an instruction's length. -/
def decodeIo (instruction : Nat → U8) (context : CpuContext) (size : OperandSize) :
    (left pos : Nat) → (sizeNow : OperandSize) → Option IoAccess
  | 0, _, _ => none
  | left + 1, pos, sizeNow =>
    let byte := instruction pos
    if byte = 0x66 then decodeIo instruction context size left (pos + 1) size.other
    else if isNeutralOverride byte then decodeIo instruction context size left (pos + 1) sizeNow
    else if isImmediateIo byte then
      if left = 0 then none
      else some ⟨(instruction (pos + 1)).setWidth 16, accessWidth byte sizeNow⟩
    else if isDxIo byte then some ⟨context.rdx.setWidth 16, accessWidth byte sizeNow⟩
    else none

/-- The access of an IN or OUT instruction, of at most 15 bytes. -/
def ioAccess (instruction : Nat → U8) (context : CpuContext) (size : OperandSize) : Option IoAccess :=
  decodeIo instruction context size 15 0 size

/-- Every port the instruction accesses is allowed. -/
def Covered (map : IoAllowMap) (instruction : Nat → U8) (context : CpuContext) (size : OperandSize) : Prop :=
  ∀ access, ioAccess instruction context size = some access → ∀ port ∈ access.ports, portAllowed map port = true

/-- The port named by an instruction without prefixes. -/
def namedPort (instruction : Nat → U8) (context : CpuContext) : BitVec 16 :=
  if isImmediateIo (instruction 0) then (instruction 1).setWidth 16 else context.rdx.setWidth 16

/-- A wide form without prefixes that begins on an allowed port and reaches one that is not. -/
def Straddles (map : IoAllowMap) (instruction : Nat → U8) (context : CpuContext) (size : OperandSize) : Prop :=
  isWideIo (instruction 0) = true ∧ portAllowed map (namedPort instruction context).toNat = true ∧
    ∃ i < size.bytes, portAllowed map ((namedPort instruction context).toNat + i) = false

section Forms

variable {map : IoAllowMap} {rip : U64} {instruction : Nat → U8} {context : CpuContext} {size : OperandSize}

theorem plainIo_opcode : ∀ opcode : U8, isPlainIo opcode = true →
    opcode ≠ 0x0F ∧ opcode ≠ 0x66 ∧ isNeutralOverride opcode = false := by decide +kernel

theorem plainIo_dx {opcode : U8} (hio : isPlainIo opcode = true) (himm : ¬ isImmediateIo opcode = true) :
    isDxIo opcode = true := (of_decide_eq_true hio).resolve_left himm

theorem isPlainIo_of_wide {opcode : U8} (h : isWideIo opcode = true) : isPlainIo opcode = true :=
  (of_decide_eq_true h).1

theorem checkPort_ok_iff {port : BitVec 16} {denied : TrapDenied} :
    checkPort map port denied = .ok () ↔ portAllowed map port.toNat = true := by
  unfold checkPort
  split
  next h => exact ⟨fun _ => h, fun _ => rfl⟩
  next h => exact ⟨fun h' => (by cases h'), fun h' => absurd h' h⟩

/-- For such an instruction the handler asks for the port it names. -/
theorem handler_plainIo_iff (hio : isPlainIo (instruction 0) = true) :
    policyCheckTrapHandler map rip instruction context = .ok () ↔
      portAllowed map (namedPort instruction context).toNat = true := by
  obtain ⟨hmsr, -, -⟩ := plainIo_opcode _ hio
  rw [policyCheckTrapHandler, if_neg fun h => hmsr h.1, namedPort]
  by_cases himm : isImmediateIo (instruction 0) = true
  · rw [if_pos himm, if_pos himm]
    exact checkPort_ok_iff
  · rw [if_neg himm, if_neg himm, if_pos (plainIo_dx hio himm)]
    exact checkPort_ok_iff

/-- Everything else is denied: there is no safe MSR, and a prefix is an unknown opcode. -/
theorem handler_denies (hio : ¬ isPlainIo (instruction 0) = true) :
    policyCheckTrapHandler map rip instruction context ≠ .ok () := by
  have himm : ¬ isImmediateIo (instruction 0) = true := fun h => hio (decide_eq_true (Or.inl h))
  have hdx : ¬ isDxIo (instruction 0) = true := fun h => hio (decide_eq_true (Or.inr h))
  rw [policyCheckTrapHandler]
  split
  · dsimp only
    rw [if_neg (by simp [safeMsrList])]
    exact fun h => by cases h
  · exact fun h => by cases h

theorem ioAccess_plainIo (hio : isPlainIo (instruction 0) = true) :
    ioAccess instruction context size =
      some ⟨namedPort instruction context, accessWidth (instruction 0) size⟩ := by
  obtain ⟨-, hsize, hneutral⟩ := plainIo_opcode _ hio
  rw [ioAccess, decodeIo, namedPort, if_neg hsize, if_neg (Bool.eq_false_iff.mp hneutral)]
  by_cases himm : isImmediateIo (instruction 0) = true
  · rw [if_pos himm, if_pos himm]
    rfl
  · rw [if_neg himm, if_neg himm, if_pos (plainIo_dx hio himm)]

theorem covered_plainIo_iff (hio : isPlainIo (instruction 0) = true) :
    Covered map instruction context size ↔
      ∀ i < accessWidth (instruction 0) size, portAllowed map ((namedPort instruction context).toNat + i) = true := by
  unfold Covered
  rw [ioAccess_plainIo hio]
  constructor
  · intro h i hi
    exact h _ rfl _ (List.mem_map.mpr ⟨i, List.mem_range.mpr hi, rfl⟩)
  · rintro h access ⟨⟩ port hport
    obtain ⟨i, hi, rfl⟩ := List.mem_map.mp hport
    exact h i (List.mem_range.mp hi)

end Forms

/-- **What the I/O policy covers.** Over every map, instruction, register state and operand size: if
    the handler permits an IN or OUT then every port it accesses is allowed, exactly if the
    instruction is not an unprefixed wide form that begins on an allowed port and reaches one
    that is not. -/
theorem trap_policy_covers_iff (map : IoAllowMap) (rip : U64) (instruction : Nat → U8) (context : CpuContext)
    (size : OperandSize) :
    (policyCheckTrapHandler map rip instruction context = .ok () → Covered map instruction context size) ↔
      ¬ Straddles map instruction context size := by
  by_cases hio : isPlainIo (instruction 0) = true
  · rw [handler_plainIo_iff hio, covered_plainIo_iff hio]
    by_cases hwide : isWideIo (instruction 0) = true
    · rw [accessWidth, if_pos hwide]
      constructor
      · rintro h ⟨-, hfirst, i, hi, hport⟩
        rw [h hfirst i hi] at hport
        cases hport
      · intro h hfirst i hi
        by_contra hport
        exact h ⟨hwide, hfirst, i, hi, Bool.eq_false_iff.mpr hport⟩
    · -- a byte form accesses the port it names and no other
      rw [accessWidth, if_neg hwide]
      refine iff_of_true (fun hfirst i hi => ?_) fun h => hwide h.1
      rw [Nat.lt_one_iff.mp hi]
      exact hfirst
  · exact iff_of_true (fun h => absurd h (handler_denies hio)) fun h => hio (isPlainIo_of_wide h.1)

/-- `in eax, 0x71`. -/
def inEax71 (i : Nat) : U8 := if i = 0 then 0xE5 else 0x71

/-- Under the policy the driver sets up, a 32-bit IN from the last CMOS port is permitted and
    reads `0x72`, `0x73` and `0x74` too. -/
theorem wide_in_uncovered :
    policyCheckTrapHandler initPolicyTable 0x7F001000 inEax71 ⟨0, 0⟩ = .ok () ∧
      ioAccess inEax71 ⟨0, 0⟩ .dword = some ⟨0x71, 4⟩ ∧ 0x72 ∈ (⟨0x71, 4⟩ : IoAccess).ports ∧
      portAllowed initPolicyTable 0x72 = false ∧ ¬ Covered initPolicyTable inEax71 ⟨0, 0⟩ .dword := by
  have haccess : ioAccess inEax71 ⟨0, 0⟩ .dword = some ⟨0x71, 4⟩ := by decide +kernel
  have hmem : 0x72 ∈ (⟨0x71, 4⟩ : IoAccess).ports := by decide
  have hport : portAllowed initPolicyTable 0x72 = false := by decide +kernel
  refine ⟨by decide +kernel, haccess, hmem, hport, fun hcovered => ?_⟩
  rw [hcovered _ haccess _ hmem] at hport
  cases hport

/-- No policy that allows a port is safe: the last allowed one is also the start of a wide access. -/
theorem uncovered_of_allowed {map : IoAllowMap} {port : Nat} (hport : portAllowed map port = true)
    (rip : U64) (size : OperandSize) :
    ∃ instruction context, policyCheckTrapHandler map rip instruction context = .ok () ∧
      ¬ Covered map instruction context size := by
  have hbound : ∀ port, portAllowed map port = true → port ≤ 0xFFFF := by
    intro port hport
    unfold portAllowed at hport
    split at hport
    · omega
    · cases hport
  let last := Nat.findGreatest (fun port => portAllowed map port = true) 0xFFFF
  have hlast : portAllowed map last = true :=
    Nat.findGreatest_spec (P := fun port => portAllowed map port = true) (hbound port hport) hport
  have hafter : ¬ portAllowed map (last + 1) = true := fun h =>
    Nat.findGreatest_is_greatest (P := fun port => portAllowed map port = true) (Nat.lt_succ_self last) (hbound _ h) h
  -- `in ax, dx` or `in eax, dx` at that port
  have hnamed : (namedPort (fun _ => 0xED) ⟨0, BitVec.ofNat 64 last⟩).toNat = last := by
    have hle := hbound last hlast
    have himm : ¬ isImmediateIo 0xED = true := by decide
    rw [namedPort, if_neg himm, BitVec.toNat_setWidth, BitVec.toNat_ofNat]
    omega
  refine ⟨fun _ => 0xED, ⟨0, BitVec.ofNat 64 last⟩, (handler_plainIo_iff (by decide)).mpr (by rw [hnamed]; exact hlast), ?_⟩
  rw [covered_plainIo_iff (by decide), hnamed]
  intro hall
  exact hafter (hall 1 (by cases size <;> decide))

end SentinelStack.Smm
