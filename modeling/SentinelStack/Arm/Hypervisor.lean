import SentinelStack.Arm.Stage1Walk
import SentinelStack.Lib.Lts
import SentinelStack.Lib.SaveArea

/- The hypervisor as the guest meets it: `sync_lower_el64` of `exceptions.S` around
   `handle_sync_lower`.

   The concrete machine saves x0 to x30 on the EL2 stack instruction by instruction,
   calls the handler with the syndrome register, and loads them back before `eret`.
   The handler decodes the bits of the syndrome and reads x0 from the stack. The
   abstract machine has neither stack nor bits: an exception has a meaning
   (`Trap.verdict`), after which the guest goes on with its registers as they were,
   or never again.

   `hypervisor_refines`: the two show the same events in the same order and leave the
   guest in the same context, over every run; the EL2 stack pointer is the same
   whenever the guest runs, and nothing follows a lockdown or a freeze.

   Of the C code it is assumed that it keeps sp, as AAPCS64 asks for, and leaves the
   256 bytes of the frame alone; it reads `regs[0]` and writes none of them. Every
   read of its page table walk is answered: one that aborts at EL2 ends in
   `sync_current_el`, which is not modelled. Between two exceptions the memory of the
   stack may change in any way. -/
namespace SentinelStack.Arm
open SentinelStack.Lib

/-! The instructions of the exception path. -/

/-- x0 to x30. -/
abbrev GpReg := Fin 31

structure ArmState where
  x : GpReg → U64
  sp : U64
  mem : ByteMem

inductive ArmInst
  | subSp (n : Nat)
  | addSp (n : Nat)
  | stp (r₁ r₂ : GpReg) (offset : Nat)
  | str (r : GpReg) (offset : Nat)
  | ldp (r₁ r₂ : GpReg) (offset : Nat)
  | ldr (r : GpReg) (offset : Nat)

namespace ArmState

def storeReg (s : ArmState) (r : GpReg) (offset : Nat) : ArmState :=
  { s with mem := store64 s.mem (s.sp + BitVec.ofNat 64 offset) (s.x r) }

def loadReg (s : ArmState) (r : GpReg) (offset : Nat) : ArmState :=
  { s with x := Function.update s.x r (load64 s.mem (s.sp + BitVec.ofNat 64 offset)) }

def exec (s : ArmState) : ArmInst → ArmState
  | .subSp n => { s with sp := s.sp - BitVec.ofNat 64 n }
  | .addSp n => { s with sp := s.sp + BitVec.ofNat 64 n }
  | .stp r₁ r₂ offset => (s.storeReg r₁ offset).storeReg r₂ (offset + 8)
  | .str r offset => s.storeReg r offset
  | .ldp r₁ r₂ offset => (s.loadReg r₁ offset).loadReg r₂ (offset + 8)
  | .ldr r offset => s.loadReg r offset

end ArmState

def saveGuestContext : List ArmInst :=
  [.subSp 256, .stp 0 1 0, .stp 2 3 16, .stp 4 5 32, .stp 6 7 48, .stp 8 9 64, .stp 10 11 80, .stp 12 13 96,
    .stp 14 15 112, .stp 16 17 128, .stp 18 19 144, .stp 20 21 160, .stp 22 23 176, .stp 24 25 192, .stp 26 27 208,
    .stp 28 29 224, .str 30 240]

def restoreGuestContext : List ArmInst :=
  [.ldp 0 1 0, .ldp 2 3 16, .ldp 4 5 32, .ldp 6 7 48, .ldp 8 9 64, .ldp 10 11 80, .ldp 12 13 96, .ldp 14 15 112,
    .ldp 16 17 128, .ldp 18 19 144, .ldp 20 21 160, .ldp 22 23 176, .ldp 24 25 192, .ldp 26 27 208, .ldp 28 29 224,
    .ldr 30 240, .addSp 256]

/-! The frame. -/

/-- `regs[0]` to `regs[30]`. -/
def trapFrame : Slots GpReg := (List.finRange 31).map fun r => (r, 8 * r.val)

theorem spaced_trapFrame : Spaced trapFrame 256 where
  apart := by decide
  inside := by decide
  fits := by decide

theorem mem_trapFrame (r : GpReg) : r ∈ trapFrame.map Prod.fst := by
  revert r
  decide

/-- The slots of a store, or of a load. -/
def ArmInst.slots : ArmInst → Slots GpReg
  | .stp r₁ r₂ offset | .ldp r₁ r₂ offset => [(r₁, offset), (r₂, offset + 8)]
  | .str r offset | .ldr r offset => [(r, offset)]
  | _ => []

def ArmInst.isStore : ArmInst → Bool
  | .stp .. | .str .. => true
  | _ => false

def ArmInst.isLoad : ArmInst → Bool
  | .ldp .. | .ldr .. => true
  | _ => false

theorem run_stores {is : List ArmInst} (h : ∀ i ∈ is, i.isStore = true) (s : ArmState) :
    is.foldl ArmState.exec s = { s with mem := saveAll s.sp (is.flatMap ArmInst.slots) s.x s.mem } := by
  induction is generalizing s with
  | nil => rfl
  | cons i is ih =>
    obtain ⟨hi, his⟩ := List.forall_mem_cons.mp h
    rw [List.foldl_cons, ih his, List.flatMap_cons, saveAll_append]
    cases i with
    | stp r₁ r₂ offset => rfl
    | str r offset => rfl
    | _ => cases hi

theorem run_loads {is : List ArmInst} (h : ∀ i ∈ is, i.isLoad = true) (s : ArmState) :
    is.foldl ArmState.exec s = { s with x := restoreAll s.sp (is.flatMap ArmInst.slots) s.mem s.x } := by
  induction is generalizing s with
  | nil => rfl
  | cons i is ih =>
    obtain ⟨hi, his⟩ := List.forall_mem_cons.mp h
    rw [List.foldl_cons, ih his, List.flatMap_cons, restoreAll_append]
    cases i with
    | ldp r₁ r₂ offset => rfl
    | ldr r offset => rfl
    | _ => cases hi

theorem run_saveGuestContext (s : ArmState) :
    saveGuestContext.foldl ArmState.exec s = ⟨s.x, s.sp - 256, saveAll (s.sp - 256) trapFrame s.x s.mem⟩ := by
  have hstores : ∀ i ∈ saveGuestContext.tail, i.isStore = true := by simp [saveGuestContext, ArmInst.isStore]
  have hslots : saveGuestContext.tail.flatMap ArmInst.slots = trapFrame := by decide
  have hsplit : saveGuestContext = .subSp 256 :: saveGuestContext.tail := rfl
  rw [hsplit, List.foldl_cons, run_stores hstores, hslots]
  rfl

theorem run_restoreGuestContext (s : ArmState) :
    restoreGuestContext.foldl ArmState.exec s = ⟨restoreAll s.sp trapFrame s.mem s.x, s.sp + 256, s.mem⟩ := by
  have hsplit : restoreGuestContext = restoreGuestContext.dropLast ++ [.addSp 256] := rfl
  have hloads : ∀ i ∈ restoreGuestContext.dropLast, i.isLoad = true := by simp [restoreGuestContext, ArmInst.isLoad]
  have hslots : restoreGuestContext.dropLast.flatMap ArmInst.slots = trapFrame := by decide
  rw [hsplit, List.foldl_append, run_loads hloads, hslots]
  rfl

/-! Exceptions. -/

/-- A syndrome: what ESR_EL2 has in its upper half, the class, the length bit and the rest. -/
def syndrome (upper : U32) (ec : BitVec 6) (il : BitVec 1) (iss : BitVec 25) : U64 :=
  BitVec.ofNat 64 (upper.toNat * 2 ^ 32 + ec.toNat * 2 ^ 26 + il.toNat * 2 ^ 25 + iss.toNat)

/-- The part of the syndrome of a data abort: write or read, and the fault status. -/
def dataIss (high : BitVec 18) (wnr : Bool) (dfsc : BitVec 6) : BitVec 25 :=
  BitVec.ofNat 25 (high.toNat * 2 ^ 7 + wnr.toNat * 2 ^ 6 + dfsc.toNat)

/-- The exceptions that the guest takes to EL2, with all that the syndrome may say besides. -/
inductive Trap
  | dataAbort (upper : U32) (il : BitVec 1) (high : BitVec 18) (wnr : Bool) (dfsc : BitVec 6)
  | instrAbort (upper : U32) (il : BitVec 1) (iss : BitVec 25)
  | hvc (upper : U32) (il : BitVec 1) (iss : BitVec 25)
  | other (upper : U32) (ec : BitVec 6) (il : BitVec 1) (iss : BitVec 25)
      (class_ne : ec ≠ 0x24 ∧ ec ≠ 0x20 ∧ ec ≠ 0x16)

namespace Trap

def esr : Trap → U64
  | dataAbort upper il high wnr dfsc => syndrome upper 0x24 il (dataIss high wnr dfsc)
  | instrAbort upper il iss => syndrome upper 0x20 il iss
  | hvc upper il iss => syndrome upper 0x16 il iss
  | other upper ec il iss _ => syndrome upper ec il iss

/-- ELR_EL2: a call returns behind itself, everything else to the instruction that trapped. -/
def returnPc (pc : U64) : Trap → U64
  | hvc .. => pc + 4
  | _ => pc

end Trap

/-- Translation and permission faults, of any level. -/
def IsStage2Fault (dfsc : BitVec 6) : Prop := dfsc.toNat / 4 = 1 ∨ dfsc.toNat / 4 = 3

instance (dfsc : BitVec 6) : Decidable (IsStage2Fault dfsc) := inferInstanceAs (Decidable (_ ∨ _))

/-- The handler does not come back. -/
def SyncAction.halts : SyncAction → Bool
  | .lockdown | .frozen .. => true
  | _ => false

/-- What an exception means for a guest with `x0` in x0, whose walk of `x0` gives `walk`. -/
def Trap.verdict (t : Trap) (far x0 : U64) (walk : Except Stage1Level U64) : SyncAction :=
  match t with
  | .dataAbort _ _ _ wnr dfsc =>
    if IsStage2Fault dfsc then if wnr then .lockdown else .readBlocked else .ignored
  | .instrAbort .. => .frozen far t.esr
  | .hvc .. =>
    match walk with
    | .error level => .vmiFailed level
    | .ok pa => .vmiSuccess x0 pa
  | .other .. => .ignored

/-! The bits of a syndrome. -/

section bits

variable (upper : U32) (ec : BitVec 6) (il : BitVec 1) (iss : BitVec 25)

theorem toNat_syndrome :
    (syndrome upper ec il iss).toNat = upper.toNat * 2 ^ 32 + ec.toNat * 2 ^ 26 + il.toNat * 2 ^ 25 + iss.toNat := by
  rw [syndrome, BitVec.toNat_ofNat, Nat.mod_eq_of_lt]
  omega

theorem ec_syndrome : (syndrome upper ec il iss &&& esrEcMask) >>> 26 = ec.setWidth 64 := by
  have hmask : esrEcMask = BitVec.ofNat 64 ((2 ^ 6 - 1) * 2 ^ 26) := by decide
  apply BitVec.eq_of_toNat_eq
  rw [BitVec.toNat_ushiftRight, hmask, toNat_and_field 26 6 (by decide), toNat_syndrome, Nat.shiftRight_eq_div_pow,
    BitVec.toNat_setWidth]
  omega

theorem iss_syndrome : syndrome upper ec il iss &&& esrIssMask = iss.setWidth 64 := by
  have hmask : esrIssMask = BitVec.ofNat 64 ((2 ^ 25 - 1) * 2 ^ 0) := by decide
  apply BitVec.eq_of_toNat_eq
  rw [hmask, toNat_and_field 0 25 (by decide), toNat_syndrome, BitVec.toNat_setWidth]
  omega

variable (high : BitVec 18) (wnr : Bool) (dfsc : BitVec 6)

theorem toNat_dataIss : (dataIss high wnr dfsc).toNat = high.toNat * 2 ^ 7 + wnr.toNat * 2 ^ 6 + dfsc.toNat := by
  have hwnr := wnr.toNat_le
  rw [dataIss, BitVec.toNat_ofNat, Nat.mod_eq_of_lt]
  omega

theorem dfsc_dataIss : (dataIss high wnr dfsc).setWidth 64 &&& esrIssDfscMask = dfsc.setWidth 64 := by
  have hmask : esrIssDfscMask = BitVec.ofNat 64 ((2 ^ 6 - 1) * 2 ^ 0) := by decide
  apply BitVec.eq_of_toNat_eq
  rw [hmask, toNat_and_field 0 6 (by decide), BitVec.toNat_setWidth, toNat_dataIss, BitVec.toNat_setWidth]
  omega

theorem wnr_dataIss : (dataIss high wnr dfsc).setWidth 64 &&& esrIssWnR ≠ 0 ↔ wnr = true := by
  have hmask : esrIssWnR = BitVec.ofNat 64 (2 ^ 6) := by decide
  rw [hmask, and_bit_ne_zero_iff 6 (by decide), BitVec.toNat_setWidth, toNat_dataIss]
  cases wnr <;> simp <;> omega

/-- The two ranges of the source are the translation and the permission faults. -/
theorem isStage2Fault_iff :
    0x04 ≤ dfsc.setWidth 64 ∧ dfsc.setWidth 64 ≤ 0x07 ∨ 0x0C ≤ dfsc.setWidth 64 ∧ dfsc.setWidth 64 ≤ 0x0F ↔
      IsStage2Fault dfsc := by
  revert dfsc
  decide

end bits

/-- **The handler takes an exception for what it is**, whatever else is in the syndrome. -/
theorem handleSyncLower_esr (rule : BitFieldRule) (memory : U64 → U64) (ttbr0 ttbr1 far x0 : U64) (t : Trap) :
    handleSyncLower rule memory ttbr0 ttbr1 t.esr far x0 =
      t.verdict far x0 (softwareWalk rule memory ttbr0 ttbr1 x0) := by
  unfold handleSyncLower
  cases t with
  | dataAbort upper il high wnr dfsc =>
    simp only [Trap.esr, Trap.verdict, ec_syndrome, iss_syndrome, dfsc_dataIss, wnr_dataIss, isStage2Fault_iff]
    rfl
  | instrAbort upper il iss =>
    simp only [Trap.esr, Trap.verdict, ec_syndrome]
    rfl
  | hvc upper il iss =>
    simp only [Trap.esr, Trap.verdict, ec_syndrome]
    rfl
  | other upper ec il iss class_ne =>
    have hclass : ∀ ec : BitVec 6, ec ≠ 0x24 ∧ ec ≠ 0x20 ∧ ec ≠ 0x16 →
        ec.setWidth 64 ≠ esrEcDataAbortL ∧ ec.setWidth 64 ≠ esrEcInstrAbortL ∧ ec.setWidth 64 ≠ esrEcHvcEl1 := by
      decide
    obtain ⟨hdata, hinstr, hhvc⟩ := hclass ec class_ne
    simp only [Trap.esr, Trap.verdict, ec_syndrome, if_neg hdata, if_neg hinstr, if_neg hhvc]

/-! The two machines. -/

section machines

variable {σ : Type*}

/-- What the guest has of the processor, and everything else that is its own. -/
structure Context (σ : Type*) where
  x : GpReg → U64
  pc : U64
  rest : σ

inductive CpuEvent (σ : Type*)
  | retire (next : Context σ)
  | trap (t : Trap) (far : U64)

/-- A guest: what its processor may do next, interrupts of its own included, and what the handler
    reads of it. -/
structure GuestCpu (σ : Type*) where
  does : Context σ → CpuEvent σ → Prop
  memory : σ → U64 → U64
  ttbr0 : σ → U64
  ttbr1 : σ → U64

/-- The guest runs, with the stack of EL2 as the last exception left it, or EL2 is in its last loop. -/
inductive HvState (σ : Type*)
  | guest (c : Context σ) (sp : U64) (stack : ByteMem)
  | halted

variable (rule : BitFieldRule) (cpu : GuestCpu σ)

/-- `sync_lower_el64` up to `bl handle_sync_lower`, which leaves its return address in x30. -/
def enterEl2 (link : U64) (x : GpReg → U64) (sp : U64) (stack : ByteMem) (esr far : U64) : ArmState :=
  let s := saveGuestContext.foldl ArmState.exec ⟨x, sp, stack⟩
  { s with x := Function.update (Function.update (Function.update (Function.update s.x 0 esr) 1 far) 2 s.sp) 30 link }

/-- What a return of the handler keeps. -/
structure HandlerReturns (s s' : ArmState) : Prop where
  sp : s'.sp = s.sp
  frame : ∀ i < 256, s'.mem (s.sp + BitVec.ofNat 64 i) = s.mem (s.sp + BitVec.ofNat 64 i)

/-- What the handler does, with the third argument pointing to the frame. -/
def handlerAction (c : Context σ) (s : ArmState) (t : Trap) (far : U64) : SyncAction :=
  handleSyncLower rule (cpu.memory c.rest) (cpu.ttbr0 c.rest) (cpu.ttbr1 c.rest) t.esr far (load64 s.mem s.sp)

/-- The machine with the hypervisor on it. -/
inductive HvStep : StepRel (HvState σ) SyncAction
  | retire {c c' : Context σ} {sp : U64} {stack stack' : ByteMem} : cpu.does c (.retire c') →
      HvStep (.guest c sp stack) none (.guest c' sp stack')
  | resume {c : Context σ} {sp : U64} {stack : ByteMem} {t : Trap} {far link : U64} {s' : ArmState} :
      cpu.does c (.trap t far) →
      (handlerAction rule cpu c (enterEl2 link c.x sp stack t.esr far) t far).halts = false →
      HandlerReturns (enterEl2 link c.x sp stack t.esr far) s' →
      HvStep (.guest c sp stack) (some (handlerAction rule cpu c (enterEl2 link c.x sp stack t.esr far) t far))
        (.guest ⟨(restoreGuestContext.foldl ArmState.exec s').x, t.returnPc c.pc, c.rest⟩
          (restoreGuestContext.foldl ArmState.exec s').sp (restoreGuestContext.foldl ArmState.exec s').mem)
  | halt {c : Context σ} {sp : U64} {stack : ByteMem} {t : Trap} {far link : U64} :
      cpu.does c (.trap t far) →
      (handlerAction rule cpu c (enterEl2 link c.x sp stack t.esr far) t far).halts = true →
      HvStep (.guest c sp stack) (some (handlerAction rule cpu c (enterEl2 link c.x sp stack t.esr far) t far)) .halted

/-- What the exception means for the guest in this context. -/
def verdictOn (c : Context σ) (t : Trap) (far : U64) : SyncAction :=
  t.verdict far (c.x 0) (softwareWalk rule (cpu.memory c.rest) (cpu.ttbr0 c.rest) (cpu.ttbr1 c.rest) (c.x 0))

/-- The guest alone, under the verdicts: `none` is a guest that was stopped. -/
inductive FencedStep : StepRel (Option (Context σ)) SyncAction
  | retire {c c' : Context σ} : cpu.does c (.retire c') → FencedStep (some c) none (some c')
  | resume {c : Context σ} {t : Trap} {far : U64} : cpu.does c (.trap t far) →
      (verdictOn rule cpu c t far).halts = false →
      FencedStep (some c) (some (verdictOn rule cpu c t far)) (some { c with pc := t.returnPc c.pc })
  | stop {c : Context σ} {t : Trap} {far : U64} : cpu.does c (.trap t far) →
      (verdictOn rule cpu c t far).halts = true → FencedStep (some c) (some (verdictOn rule cpu c t far)) none

/-! One exception. -/

theorem enterEl2_saved (link : U64) (x : GpReg → U64) (sp : U64) (stack : ByteMem) (esr far : U64) :
    (enterEl2 link x sp stack esr far).sp = sp - 256 ∧
      Saved (sp - 256) trapFrame x (enterEl2 link x sp stack esr far).mem := by
  unfold enterEl2
  rw [run_saveGuestContext]
  exact ⟨rfl, saved_saveAll spaced_trapFrame⟩

/-- `regs[0]` is x0 of the guest. -/
theorem handlerAction_eq (c : Context σ) (link sp : U64) (stack : ByteMem) (t : Trap) (far : U64) :
    handlerAction rule cpu c (enterEl2 link c.x sp stack t.esr far) t far = verdictOn rule cpu c t far := by
  obtain ⟨hsp, hsaved⟩ := enterEl2_saved link c.x sp stack t.esr far
  have hx0 : load64 _ (sp - 256 + 0) = c.x 0 := hsaved (0, 0) (by decide)
  rw [add_zero] at hx0
  rw [handlerAction, hsp, hx0, handleSyncLower_esr]
  rfl

/-- **An exception that returns is invisible**: every register is back, and so is the stack pointer. -/
theorem context_restored {link : U64} {x : GpReg → U64} {sp : U64} {stack : ByteMem} {esr far : U64} {s' : ArmState}
    (h : HandlerReturns (enterEl2 link x sp stack esr far) s') :
    (restoreGuestContext.foldl ArmState.exec s').x = x ∧ (restoreGuestContext.foldl ArmState.exec s').sp = sp := by
  obtain ⟨hsp, hsaved⟩ := enterEl2_saved link x sp stack esr far
  have hframe := h.frame
  rw [hsp] at hframe
  have hkept : Saved (sp - 256) trapFrame x s'.mem := hsaved.congr spaced_trapFrame hframe
  rw [run_restoreGuestContext, h.sp, hsp]
  refine ⟨funext fun r => ?_, ?_⟩
  · show restoreAll _ trapFrame s'.mem s'.x r = x r
    rw [restoreAll_of_saved hkept, if_pos (mem_trapFrame r)]
  · exact sub_add_cancel sp 256

/-! The refinement. -/

/-- What is left of a state without EL2. -/
def HvState.context : HvState σ → Option (Context σ)
  | .guest c _ _ => some c
  | .halted => none

/-- The stack pointer of EL2 while the guest runs. -/
def HvState.StackAt (sp : U64) : HvState σ → Prop
  | .guest _ sp' _ => sp' = sp
  | .halted => True

theorem fenced_simulates (sp : U64) :
    Simulates (HvStep rule cpu) (FencedStep rule cpu) fun s o => s.context = o ∧ s.StackAt sp := by
  rintro s _ a s' ⟨rfl, hsp⟩ hstep
  cases hstep with
  | retire hdoes => exact ⟨_, Shows.single (.retire hdoes), rfl, hsp⟩
  | @resume c _ stack t far link r hdoes hhalts hreturns =>
    obtain ⟨hx, hsp'⟩ := context_restored hreturns
    rw [handlerAction_eq] at hhalts ⊢
    rw [hx, hsp']
    exact ⟨_, Shows.single (.resume hdoes hhalts), rfl, hsp⟩
  | halt hdoes hhalts =>
    rw [handlerAction_eq] at hhalts ⊢
    exact ⟨_, Shows.single (.stop hdoes hhalts), rfl, trivial⟩

/-- Every verdict is carried out: a handler that changes nothing returns. -/
theorem hv_simulates : Simulates (FencedStep rule cpu) (HvStep rule cpu) fun o s => s.context = o := by
  intro o s a o' hR hstep
  cases s with
  | halted =>
    cases hR
    cases hstep
  | guest c sp stack =>
    cases hR
    cases hstep with
    | retire hdoes => exact ⟨.guest _ sp stack, Shows.single (.retire hdoes), rfl⟩
    | @resume _ t far hdoes hhalts =>
      have hreturns : HandlerReturns (enterEl2 0 c.x sp stack t.esr far) (enterEl2 0 c.x sp stack t.esr far) :=
        ⟨rfl, fun _ _ => rfl⟩
      rw [← handlerAction_eq rule cpu c 0 sp stack] at hhalts ⊢
      refine ⟨_, Shows.single (.resume hdoes hhalts hreturns), ?_⟩
      rw [(context_restored hreturns).1]
      rfl
    | @stop _ t far hdoes hhalts =>
      rw [← handlerAction_eq rule cpu c 0 sp stack] at hhalts ⊢
      exact ⟨.halted, Shows.single (.halt hdoes hhalts), rfl⟩

/-- EL2 does not leave its last loop. -/
theorem halted_final {as : List SyncAction} {s : HvState σ} (h : Shows (HvStep rule cpu) .halted as s) :
    as = [] ∧ s = .halted := by
  cases h with
  | nil => exact ⟨rfl, rfl⟩
  | cons hstep _ => cases hstep

theorem halting_last {as : List SyncAction} {s s' : HvState σ} (h : Shows (HvStep rule cpu) s as s') :
    ∀ a ∈ as, a.halts = true → s' = .halted ∧ as.getLast? = some a := by
  induction h with
  | nil _ => exact List.forall_mem_nil _
  | @cons s₁ s₂ s₃ o as hstep hrest ih =>
    cases hstep with
    | retire => exact ih
    | resume _ hhalts _ =>
      refine List.forall_mem_cons.mpr ⟨fun h => absurd (h.symm.trans hhalts) (by decide), fun a ha hah => ?_⟩
      obtain ⟨hs, hlast⟩ := ih a ha hah
      have hne : as ≠ [] := List.ne_nil_of_mem ha
      refine ⟨hs, ?_⟩
      rw [Option.toList_some, List.singleton_append, List.getLast?_cons_of_ne_nil hne, hlast]
    | halt _ _ =>
      obtain ⟨rfl, rfl⟩ := halted_final rule cpu hrest
      refine List.forall_mem_cons.mpr ⟨fun _ => ⟨rfl, rfl⟩, List.forall_mem_nil _⟩

/-- **The hypervisor refines the fence.** From any guest, any EL2 stack and over any run: the events and the
    contexts of the guest are those of the guest alone under the verdicts, and conversely. Whenever the guest
    runs the stack pointer of EL2 is where it was, and a lockdown or a freeze is the last event of its run. -/
theorem hypervisor_refines (c : Context σ) (sp : U64) (stack : ByteMem) :
    (∀ as o, (∃ s, Shows (HvStep rule cpu) (.guest c sp stack) as s ∧ s.context = o) ↔
      Shows (FencedStep rule cpu) (some c) as o) ∧
    ∀ as s, Shows (HvStep rule cpu) (.guest c sp stack) as s → s.StackAt sp ∧
      ∀ a ∈ as, a.halts = true → s = .halted ∧ as.getLast? = some a := by
  have hdown : ∀ as s, Shows (HvStep rule cpu) (.guest c sp stack) as s →
      Shows (FencedStep rule cpu) (some c) as s.context ∧ s.StackAt sp := by
    intro as s hrun
    obtain ⟨o, ho, hctx, hsp⟩ := (fenced_simulates rule cpu sp).run hrun ⟨rfl, rfl⟩
    rw [hctx]
    exact ⟨ho, hsp⟩
  refine ⟨fun as o => ⟨?_, fun hrun => ?_⟩, fun as s hrun => ⟨(hdown as s hrun).2, halting_last rule cpu hrun⟩⟩
  · rintro ⟨s, hrun, rfl⟩
    exact (hdown as s hrun).1
  · exact (hv_simulates rule cpu).run hrun rfl

end machines

end SentinelStack.Arm
