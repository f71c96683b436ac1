import SentinelStack.Smm.TrapPolicy
import SentinelStack.Lib.Lts
import SentinelStack.Lib.SaveArea

/- The `#GP` stub of the SMM supervisor (`SentinelGpFaultHandler` in
   `SentinelSmmTrap.nasm`) around the policy check.

   The processor pushes its frame, the stub the fifteen registers in the order of
   `SENTINEL_CPU_CONTEXT`; the handler gets the error code, the faulting RIP and a
   pointer to the registers. It reads them and returns a status, which the stub does
   not look at: it pops the registers and returns with `iretq`. Neither of the two
   advances RIP or carries the instruction out.

   `trapped_forever`: over every run, an instruction that traps is judged by the
   policy from its own registers, and is trapped again in the same state, whether it
   is permitted or denied. The code behind it is never reached.

   Of the C code it is assumed that it keeps RBP, as the Microsoft convention asks
   for, and leaves the 168 bytes of the two frames alone; of the platform, which
   installs the stub (nothing in this driver does), that the fault enters it with the
   frame of a change of privilege. -/
namespace SentinelStack.Smm
open SentinelStack.Lib

/-! The interrupted code. -/

/-- The registers, RSP apart. -/
inductive Gpr
  | rax
  | rbx
  | rcx
  | rdx
  | rbp
  | rsi
  | rdi
  | r8
  | r9
  | r10
  | r11
  | r12
  | r13
  | r14
  | r15
  deriving DecidableEq, Repr

/-- The registers in the order in which the stub pushes them. -/
def gprs : List Gpr :=
  [.rax, .rbx, .rcx, .rdx, .rbp, .rsi, .rdi, .r8, .r9, .r10, .r11, .r12, .r13, .r14, .r15]

theorem mem_gprs (r : Gpr) : r ∈ gprs := by
  cases r <;> decide

/-- The words of the frame that the processor pushes. -/
inductive FrameWord
  | errorCode
  | rip
  | cs
  | rflags
  | rsp
  | ss
  deriving DecidableEq, Repr

/-- Where they are from the error code on. -/
def hardwareFrame : Slots FrameWord :=
  [(.ss, 40), (.rsp, 32), (.rflags, 24), (.cs, 16), (.rip, 8), (.errorCode, 0)]

theorem spaced_hardwareFrame : Spaced hardwareFrame 48 where
  apart := by decide
  inside := by decide
  fits := by decide

/-- An SMI handler at CPL3: its registers, and everything else that is its own. -/
structure Interrupted (σ : Type*) where
  regs : Gpr → U64
  rip : U64
  cs : U64
  rflags : U64
  rsp : U64
  ss : U64
  rest : σ

variable {σ : Type*}

def Interrupted.word (c : Interrupted σ) (errorCode : U64) : FrameWord → U64
  | .errorCode => errorCode
  | .rip => c.rip
  | .cs => c.cs
  | .rflags => c.rflags
  | .rsp => c.rsp
  | .ss => c.ss

/-! The stub. -/

/-- The fault: the processor pushes its frame below `top`. -/
def deliverGp (c : Interrupted σ) (errorCode top : U64) (mem : ByteMem) : StackMachine Gpr :=
  ⟨c.regs, top - 48, saveAll (top - 48) hardwareFrame (c.word errorCode) mem⟩

/-- The state in which `PolicyCheckTrapHandler` is called, with the pushed return address still to come. -/
def stubCall (s : StackMachine Gpr) : StackMachine Gpr :=
  let s := gprs.foldl StackMachine.push s
  let regs := Function.update s.regs .rcx (load64 s.mem (s.sp + 0x78))
  let regs := Function.update regs .rdx (load64 s.mem (s.sp + 0x80))
  let regs := Function.update regs .r8 s.sp
  let regs := Function.update regs .rbp s.sp
  { s with regs := regs, sp := (s.sp &&& ~~~(0x0F : U64)) - 0x20 }

/-- The stub after the call, up to `iretq`: RSP from RBP, the pops, and the error code dropped. -/
def stubReturn (s : StackMachine Gpr) : StackMachine Gpr :=
  let s := gprs.reverse.foldl StackMachine.pop { s with sp := s.regs .rbp }
  { s with sp := s.sp + 8 }

/-- `iretq`. -/
def iretq (s : StackMachine Gpr) (rest : σ) : Interrupted σ where
  regs := s.regs
  rip := load64 s.mem s.sp
  cs := load64 s.mem (s.sp + 8)
  rflags := load64 s.mem (s.sp + 16)
  rsp := load64 s.mem (s.sp + 24)
  ss := load64 s.mem (s.sp + 32)
  rest := rest

/-- `Context->Rcx` and `Context->Rdx`, from the pointer. -/
def readContext (mem : ByteMem) (context : U64) : CpuContext where
  rcx := load64 mem (context + 96)
  rdx := load64 mem (context + 88)

/-- What a return of the handler keeps: RBP, and the frames that it points to. -/
structure HandlerReturns (s s' : StackMachine Gpr) : Prop where
  rbp : s'.regs .rbp = s.regs .rbp
  frames : ∀ i < 168, s'.mem (s.regs .rbp + BitVec.ofNat 64 i) = s.mem (s.regs .rbp + BitVec.ofNat 64 i)

/-! The two frames. -/

/-- The frames from the stack pointer after the pushes on: the registers and the words of the processor. -/
structure Frames (base : U64) (c : Interrupted σ) (errorCode : U64) (mem : ByteMem) : Prop where
  gprs : Saved base (pushSlots gprs) c.regs mem
  words : Saved (base + 120) hardwareFrame (c.word errorCode) mem

theorem spaced_gprs : Spaced (pushSlots gprs) 120 := spaced_pushSlots (by decide)

/-- The memory when the registers are pushed. -/
def pushedMem (c : Interrupted σ) (errorCode top : U64) (mem : ByteMem) : ByteMem :=
  saveAll (top - 168) (pushSlots gprs) c.regs (saveAll (top - 48) hardwareFrame (c.word errorCode) mem)

section pushed

variable (c : Interrupted σ) (errorCode top : U64) (mem : ByteMem)

theorem run_pushes :
    gprs.foldl StackMachine.push (deliverGp c errorCode top mem) =
      ⟨c.regs, top - 168, pushedMem c errorCode top mem⟩ := by
  have hbase : top - 48 - BitVec.ofNat 64 (8 * gprs.length) = top - 168 := by
    rw [← sub_add_eq_sub_sub]
    rfl
  rw [pushes_eq, deliverGp, hbase]
  rfl

theorem words_base : top - 168 + 120 = top - 48 := by
  rw [sub_add]
  rfl

theorem frames_pushed : Frames (top - 168) c errorCode (pushedMem c errorCode top mem) where
  gprs := saved_saveAll spaced_gprs
  words := by
    rw [words_base]
    -- the pushes are below the frame of the processor
    have hsaved : Saved (top - 48) hardwareFrame (c.word errorCode) (deliverGp c errorCode top mem).mem :=
      saved_saveAll spaced_hardwareFrame
    refine hsaved.congr spaced_hardwareFrame fun i hi => ?_
    apply saveAll_outside spaced_gprs.inside
    bv_omega

end pushed

theorem Frames.congr {base : U64} {c : Interrupted σ} {errorCode : U64} {mem mem' : ByteMem}
    (h : Frames base c errorCode mem)
    (heq : ∀ i < 168, mem' (base + BitVec.ofNat 64 i) = mem (base + BitVec.ofNat 64 i)) :
    Frames base c errorCode mem' where
  gprs := h.gprs.congr spaced_gprs fun i hi => heq i (by omega)
  words := by
    refine h.words.congr spaced_hardwareFrame fun i hi => ?_
    have haddr : base + 120 + BitVec.ofNat 64 i = base + BitVec.ofNat 64 (120 + i) := by
      rw [BitVec.ofNat_add, ← BitVec.add_assoc]
      rfl
    rw [haddr]
    exact heq (120 + i) (by omega)

/-! One trap. -/

/-- The handler gets the error code and the RIP of the fault, and the registers of the interrupted code. -/
theorem stubCall_arguments (c : Interrupted σ) (errorCode top : U64) (mem : ByteMem) :
    let s := stubCall (deliverGp c errorCode top mem)
    s.regs .rcx = errorCode ∧ s.regs .rdx = c.rip ∧ readContext s.mem (s.regs .r8) = ⟨c.regs .rcx, c.regs .rdx⟩ := by
  have hframes := frames_pushed c errorCode top mem
  have hcode : load64 _ (top - 168 + 120 + 0) = errorCode := hframes.words (.errorCode, 0) (by decide)
  have hrip : load64 _ (top - 168 + 120 + 8) = c.rip := hframes.words (.rip, 8) (by decide)
  have hrcx : load64 _ (top - 168 + 96) = c.regs .rcx := hframes.gprs (.rcx, 96) (by decide)
  have hrdx : load64 _ (top - 168 + 88) = c.regs .rdx := hframes.gprs (.rdx, 88) (by decide)
  rw [add_zero] at hcode
  rw [add_assoc] at hrip
  unfold stubCall
  rw [run_pushes]
  refine ⟨hcode, hrip, ?_⟩
  show CpuContext.mk (load64 _ (top - 168 + 96)) (load64 _ (top - 168 + 88)) = _
  rw [hrcx, hrdx]

/-- The state of the call: RBP points to the frames. -/
theorem stubCall_frames (c : Interrupted σ) (errorCode top : U64) (mem : ByteMem) :
    let s := stubCall (deliverGp c errorCode top mem)
    Frames (s.regs .rbp) c errorCode s.mem := by
  unfold stubCall
  rw [run_pushes]
  exact frames_pushed c errorCode top mem

/-- **The stub gives back what it took**, whatever the handler did and returned. -/
theorem stub_identity {c : Interrupted σ} {errorCode top : U64} {mem : ByteMem} {s : StackMachine Gpr}
    (h : HandlerReturns (stubCall (deliverGp c errorCode top mem)) s) : iretq (stubReturn s) c.rest = c := by
  have hframes := (stubCall_frames c errorCode top mem).congr h.frames
  rw [← h.rbp] at hframes
  have hregs : restoreAll (s.regs .rbp) (pushSlots gprs).reverse s.mem s.regs = c.regs := by
    funext r
    have hsaved : Saved (s.regs .rbp) (pushSlots gprs).reverse c.regs s.mem :=
      fun slot hslot => hframes.gprs slot (List.mem_reverse.mp hslot)
    rw [restoreAll_of_saved hsaved, List.map_reverse, map_fst_pushSlots, if_pos (List.mem_reverse.mpr (mem_gprs r))]
  rw [stubReturn, pops_eq]
  show Interrupted.mk (restoreAll (s.regs .rbp) _ s.mem s.regs) (load64 s.mem (s.regs .rbp + 120 + 8))
    (load64 s.mem (s.regs .rbp + 120 + 8 + 8)) (load64 s.mem (s.regs .rbp + 120 + 8 + 16))
    (load64 s.mem (s.regs .rbp + 120 + 8 + 24)) (load64 s.mem (s.regs .rbp + 120 + 8 + 32)) c.rest = c
  have hword := hframes.words
  have hrip : load64 s.mem (s.regs .rbp + 120 + 8) = c.rip := hword (.rip, 8) (by decide)
  have hcs : load64 s.mem (s.regs .rbp + 120 + (8 + 8)) = c.cs := hword (.cs, 16) (by decide)
  have hrflags : load64 s.mem (s.regs .rbp + 120 + (8 + 16)) = c.rflags := hword (.rflags, 24) (by decide)
  have hrsp : load64 s.mem (s.regs .rbp + 120 + (8 + 24)) = c.rsp := hword (.rsp, 32) (by decide)
  have hss : load64 s.mem (s.regs .rbp + 120 + (8 + 32)) = c.ss := hword (.ss, 40) (by decide)
  simp only [add_assoc _ (8 : U64)]
  rw [hregs, hrip, hcs, hrflags, hrsp, hss]

/-! Runs. -/

/-- What the processor does at CPL3: the next state, or a `#GP` with its error code. -/
abbrev Cpu (σ : Type*) := Interrupted σ → Interrupted σ ⊕ U64

/-- The bytes at an address, as the supervisor reads them. -/
abbrev Fetch (σ : Type*) := σ → U64 → U8

def instructionAt (fetch : Fetch σ) (rest : σ) (rip : U64) (i : Nat) : U8 := fetch rest (rip + BitVec.ofNat 64 i)

/-- The decision about the instruction of a state. -/
def Interrupted.decision (c : Interrupted σ) (fetch : Fetch σ) (map : IoAllowMap) : Except TrapDenied Unit :=
  policyCheckTrapHandler map c.rip (instructionAt fetch c.rest c.rip) ⟨c.regs .rcx, c.regs .rdx⟩

/-- The SMI handler under the supervisor. A trap shows the decision. -/
inductive SmmStep (cpu : Cpu σ) (fetch : Fetch σ) (map : IoAllowMap) : StepRel (Interrupted σ) (Except TrapDenied Unit)
  | retire {c c' : Interrupted σ} : cpu c = .inl c' → SmmStep cpu fetch map c none c'
  /-- The supervisor stack is anywhere, and holds anything. -/
  | trap {c : Interrupted σ} {errorCode top : U64} {mem : ByteMem} {call s : StackMachine Gpr} :
      cpu c = .inr errorCode → call = stubCall (deliverGp c errorCode top mem) → HandlerReturns call s →
      SmmStep cpu fetch map c
        (some (policyCheckTrapHandler map (call.regs .rdx) (instructionAt fetch c.rest (call.regs .rdx))
          (readContext call.mem (call.regs .r8))))
        (iretq (stubReturn s) c.rest)

section runs

variable {cpu : Cpu σ} {fetch : Fetch σ} {map : IoAllowMap} {c c' : Interrupted σ} {errorCode : U64}

/-- A step from a state that traps. -/
theorem smmStep_iff (hfault : cpu c = .inr errorCode) (o : Option (Except TrapDenied Unit)) :
    SmmStep cpu fetch map c o c' ↔ o = some (c.decision fetch map) ∧ c' = c := by
  constructor
  · intro h
    cases h with
    | retire hnext =>
      rw [hfault] at hnext
      cases hnext
    | @trap _ errorCode' top mem call s _ hcall hreturns =>
      subst hcall
      obtain ⟨-, hrip, hcontext⟩ := stubCall_arguments c errorCode' top mem
      refine ⟨?_, stub_identity hreturns⟩
      rw [hrip, hcontext]
      rfl
  · rintro ⟨rfl, rfl⟩
    -- the least that the handler can do is nothing
    have hreturns : HandlerReturns (stubCall (deliverGp c' errorCode 0 fun _ => 0)) _ := ⟨rfl, fun _ _ => rfl⟩
    obtain ⟨-, hrip, hcontext⟩ := stubCall_arguments c' errorCode 0 fun _ => 0
    have hstep : SmmStep cpu fetch map c' _ _ := SmmStep.trap hfault rfl hreturns
    rw [stub_identity hreturns, hrip, hcontext] at hstep
    exact hstep

/-- **Trapped for good.** From an instruction that faults, over every run of the handler under the
    supervisor, whatever the policy and whatever the C code leaves in the registers: the state is
    the one of the first fault, and each trap shows the decision about that instruction, permitted
    or not. There is such a run for every number of traps. -/
theorem trapped_forever (cpu : Cpu σ) (fetch : Fetch σ) (map : IoAllowMap) (c : Interrupted σ) (errorCode : U64)
    (hfault : cpu c = .inr errorCode) (decisions : List (Except TrapDenied Unit)) (c' : Interrupted σ) :
    Shows (SmmStep cpu fetch map) c decisions c' ↔
      c' = c ∧ ∃ n, decisions = List.replicate n (c.decision fetch map) := by
  constructor
  · intro h
    induction h with
    | nil _ => exact ⟨rfl, 0, rfl⟩
    | cons hstep _ ih =>
      obtain ⟨rfl, rfl⟩ := (smmStep_iff hfault _).mp hstep
      obtain ⟨hc, n, rfl⟩ := ih hfault
      exact ⟨hc, n + 1, rfl⟩
  · rintro ⟨rfl, n, rfl⟩
    induction n with
    | zero => exact Shows.nil _
    | succ n ih => exact Shows.cons ((smmStep_iff hfault _).mpr ⟨rfl, rfl⟩) ih

end runs

/-- `in eax, 0x71` at CPL3. -/
def readsCmos : Interrupted Unit where
  regs := fun _ => 0
  rip := 0x7F001000
  cs := 0x33
  rflags := 2
  rsp := 0x7F004000
  ss := 0x2B
  rest := ()

def cmosCode : Fetch Unit := fun _ a => if a = 0x7F001000 then 0xE5 else 0x71

/-- The policy of the driver permits it, twice, and it is still there. -/
theorem trapped_forever_cmos :
    readsCmos.decision cmosCode initPolicyTable = .ok () ∧
      Shows (SmmStep (fun _ => .inr 0) cmosCode initPolicyTable) readsCmos [.ok (), .ok ()] readsCmos := by
  have hpermits : readsCmos.decision cmosCode initPolicyTable = .ok () := by decide
  refine ⟨hpermits, (trapped_forever _ cmosCode initPolicyTable readsCmos 0 rfl _ _).mpr ⟨rfl, 2, ?_⟩⟩
  rw [hpermits]
  rfl

end SentinelStack.Smm
