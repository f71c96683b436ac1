import SentinelStack.Vmi.VirtualRead
import SentinelStack.Lib.Orbit

/- The guest's process list (`task_walker.c`): a process record read from its
   `task_struct`, the snapshot of the list that starts at `init_task`, and the search
   for a pid.

   The offsets of the kernel are a parameter: those of the profile that is active
   after `ensure_offsets_profile_selected`. The list is the guest's to write, so the
   successor of a task is any address: `nextTask` reads it. Main result:
   `task_list_walk` — where the tasks on the way can be read, the snapshot is one
   lap of the list, at most 4096 tasks of it, a proper circular list of that many
   tasks at most is read task by task, and the search finds the first task of the
   lap that has the pid. -/
namespace SentinelStack.Vmi
open SentinelStack.Lib

def taskCommLen : Nat := 16
def maxTaskSnapshot : Nat := 4096

structure TaskOffsets where
  tasksOffset : U64
  pidOffset : U64
  tgidOffset : U64
  realParentOffset : U64
  commOffset : U64
  mmOffset : U64
  filesOffset : U64
  nsproxyOffset : U64
  startTimeOffset : U64
  flagsOffset : U64
  credOffset : U64
  credUidOffset : U64
  credGidOffset : U64
  credEuidOffset : U64
  credEgidOffset : U64
  credCapEffectiveOffset : U64

/-- `OFFSETS_6_6`, the profile in force when none is selected. -/
def offsets66 : TaskOffsets where
  tasksOffset := 0x298
  pidOffset := 0x398
  tgidOffset := 0x39c
  realParentOffset := 0x2b0
  commOffset := 0x558
  mmOffset := 0x268
  filesOffset := 0x2a0
  nsproxyOffset := 0x540
  startTimeOffset := 0x4f0
  flagsOffset := 0x070
  credOffset := 0x538
  credUidOffset := 0x04
  credGidOffset := 0x08
  credEuidOffset := 0x14
  credEgidOffset := 0x18
  credCapEffectiveOffset := 0x28

/-- `struct vmi_process`; `comm` is the whole buffer. -/
structure VmiProcess where
  taskAddr : U64
  pid : U32
  tgid : U32
  ppid : U32
  uid : U32
  gid : U32
  euid : U32
  egid : U32
  comm : List U8
  mmAddr : U64
  credAddr : U64
  filesAddr : U64
  nsproxyAddr : U64
  startTime : U64
  flags : U64
  capEffective : U64
  deriving DecidableEq, Repr

/-- The session, with the kernel profile's address of `init_task`. -/
structure TaskSession extends VmiSession where
  initTaskAddr : U64

/-! Fields. -/

/-- A zeroed `uint64_t` after a read into it; a read that fails half-way leaves what it wrote. -/
def ReadResult.u64 (r : ReadResult) : U64 := leWord (overwrite r.buf (List.replicate 8 0))

/-- The same of a `uint32_t`. -/
def ReadResult.u32 (r : ReadResult) : U32 := (leWord (overwrite r.buf (List.replicate 4 0))).setWidth 32

/-- A read whose failure ends the call. -/
def ReadResult.require (r : ReadResult) : Option ReadResult := if r.ok then some r else none

variable (host : Host) (s : TaskSession) (off : TaskOffsets)

/-- A read at the kernel's page table. -/
def readKernel (gva : U64) (size : Nat) : ReadResult := vmiReadVirtual host s.toVmiSession s.kernelPgd gva size

def readTaskField (taskGva offset : U64) (size : Nat) : ReadResult := readKernel host s (taskGva + offset) size

/-- `list_head.next` points to the `tasks` field of the next task. -/
def readTasksNext (taskGva : U64) : Option U64 :=
  (readTaskField host s taskGva off.tasksOffset 8).require.map fun r => r.u64 - off.tasksOffset

/-- A field that is read if the profile has it, and may fail. -/
def readOptionalField (base offset : U64) : U64 :=
  if offset ≠ 0 then (readTaskField host s base offset 8).u64 else 0

/-- `real_parent->pid`. -/
def readPpid (taskGva : U64) : U32 :=
  if off.realParentOffset ≠ 0 then
    let parent := readTaskField host s taskGva off.realParentOffset 8
    if parent.ok ∧ parent.u64 ≠ 0 then (readTaskField host s parent.u64 off.pidOffset 4).u32 else 0
  else 0

/-- An id in the cred struct, which a task may not have. -/
def readCredId (credAddr offset : U64) : U32 :=
  if credAddr ≠ 0 then (readTaskField host s credAddr offset 4).u32 else 0

def taskWalkerReadProcess (taskGva : U64) : Option VmiProcess := do
  let pid ← (readTaskField host s taskGva off.pidOffset 4).require
  let tgid ← (readTaskField host s taskGva off.tgidOffset 4).require
  let comm ← (readTaskField host s taskGva off.commOffset taskCommLen).require
  let mm ← (readTaskField host s taskGva off.mmOffset 8).require
  let cred ← (readTaskField host s taskGva off.credOffset 8).require
  return {
    taskAddr := taskGva
    pid := pid.u32
    tgid := tgid.u32
    ppid := readPpid host s off taskGva
    -- comm[TASK_COMM_LEN - 1] = 0
    comm := comm.buf.take (taskCommLen - 1) ++ [0]
    mmAddr := mm.u64
    filesAddr := readOptionalField host s taskGva off.filesOffset
    nsproxyAddr := readOptionalField host s taskGva off.nsproxyOffset
    startTime := readOptionalField host s taskGva off.startTimeOffset
    flags := readOptionalField host s taskGva off.flagsOffset
    credAddr := cred.u64
    uid := readCredId host s cred.u64 off.credUidOffset
    gid := readCredId host s cred.u64 off.credGidOffset
    euid := readCredId host s cred.u64 off.credEuidOffset
    egid := if off.credEgidOffset ≠ 0 then readCredId host s cred.u64 off.credEgidOffset else 0
    capEffective := if cred.u64 ≠ 0 then readOptionalField host s cred.u64 off.credCapEffectiveOffset else 0 }

/-! The two loops. -/

/-- The loop of `snapshot_processes`, with room for so many records. -/
def snapshotFrom : Nat → U64 → List VmiProcess
  | 0, _ => []
  | room + 1, current =>
    match taskWalkerReadProcess host s off current with
    | none => []
    | some proc =>
      match readTasksNext host s off current with
      | none => []
      | some next => proc :: if next ≠ s.initTaskAddr then snapshotFrom room next else []

/-- `none` is the return value -1. -/
def snapshotProcesses (maxTasks : Int) : Option (List VmiProcess) :=
  if maxTasks ≤ 0 ∨ s.initTaskAddr = 0 then none
  else some (snapshotFrom host s off maxTasks.toNat s.initTaskAddr)

/-- The loop of `task_walker_find_pid`, which counts to 4096. -/
def findPidFrom (pid : U32) : Nat → U64 → Option U64
  | 0, _ => none
  | left + 1, current =>
    match (readTaskField host s current off.pidOffset 4).require with
    | none => none
    | some thisPid =>
      if thisPid.u32 = pid then some current
      else
        match readTasksNext host s off current with
        | none => none
        | some next => if next ≠ s.initTaskAddr then findPidFrom pid left next else none

def taskWalkerFindPid (pid : U32) : Option U64 :=
  if s.initTaskAddr = 0 then none else findPidFrom host s off pid 4096 s.initTaskAddr

/-! What the loops visit. -/

/-- The task the list goes on with. -/
def nextTask (taskGva : U64) : U64 := (readTasksNext host s off taskGva).getD 0

/-- The tasks from `init_task` on, up to the first return to it, and at most 4096 of them. -/
def visitedTasks : List U64 := lap (nextTask host s off) s.initTaskAddr maxTaskSnapshot

/-- Every field the walk needs of the task can be read. -/
def TaskReadable (taskGva : U64) : Prop :=
  (taskWalkerReadProcess host s off taskGva).isSome ∧ (readTasksNext host s off taskGva).isSome

instance (taskGva : U64) : Decidable (TaskReadable host s off taskGva) := inferInstanceAs (Decidable (_ ∧ _))

/-- The records of the tasks that can be read. -/
def recordsOf (tasks : List U64) : List VmiProcess := tasks.filterMap (taskWalkerReadProcess host s off)

variable {host s off}

theorem TaskReadable.next_eq {taskGva : U64} (h : TaskReadable host s off taskGva) :
    readTasksNext host s off taskGva = some (nextTask host s off taskGva) := by
  obtain ⟨next, hnext⟩ := Option.isSome_iff_exists.mp h.2
  rw [nextTask, hnext, Option.getD_some]

/-- A record names its task and holds the pid the search reads. -/
theorem readProcess_some {taskGva : U64} {proc : VmiProcess} (h : taskWalkerReadProcess host s off taskGva = some proc) :
    proc.taskAddr = taskGva ∧
      ∃ r, (readTaskField host s taskGva off.pidOffset 4).require = some r ∧ r.u32 = proc.pid := by
  simp only [taskWalkerReadProcess, Option.bind_eq_bind, Option.bind_eq_some_iff] at h
  obtain ⟨pid, hpid, tgid, -, comm, -, mm, -, cred, -, hrecord⟩ := h
  cases hrecord
  exact ⟨rfl, pid, hpid, rfl⟩

theorem readProcess_ppid {taskGva : U64} {proc : VmiProcess} (h : taskWalkerReadProcess host s off taskGva = some proc) :
    proc.ppid = readPpid host s off taskGva := by
  simp only [taskWalkerReadProcess, Option.bind_eq_bind, Option.bind_eq_some_iff] at h
  obtain ⟨pid, -, tgid, -, comm, -, mm, -, cred, -, hrecord⟩ := h
  cases hrecord
  rfl

/-- One turn of the loop of `snapshot_processes`. -/
theorem snapshotFrom_succ (room : Nat) (current : U64) :
    snapshotFrom host s off (room + 1) current =
      match taskWalkerReadProcess host s off current with
      | none => []
      | some proc =>
        match readTasksNext host s off current with
        | none => []
        | some next => proc :: if next ≠ s.initTaskAddr then snapshotFrom host s off room next else [] := rfl

theorem recordsOf_cons {task : U64} {proc : VmiProcess} (hproc : taskWalkerReadProcess host s off task = some proc)
    (tasks : List U64) : recordsOf host s off (task :: tasks) = proc :: recordsOf host s off tasks :=
  List.filterMap_cons_some hproc

/-- A loop goes on exactly where the lap does. -/
theorem goes_on_eq {α : Type} (result : List U64 → α) {init next : U64} {rest : List U64} {loop : α}
    (hloop : next ≠ init → loop = result rest) :
    (if next ≠ init then loop else result []) = result (if next = init then [] else rest) := by
  by_cases hback : next = init
  · rw [if_pos hback, if_neg (not_not_intro hback)]
  · rw [if_neg hback, if_pos hback, hloop hback]

theorem snapshotFrom_eq (bound : Nat) (current : U64)
    (h : ∀ a ∈ lapFrom (nextTask host s off) s.initTaskAddr bound current, TaskReadable host s off a) :
    snapshotFrom host s off bound current =
      recordsOf host s off (lapFrom (nextTask host s off) s.initTaskAddr bound current) := by
  induction bound generalizing current with
  | zero => rfl
  | succ bound ih =>
    rw [lapFrom, List.forall_mem_cons] at h
    obtain ⟨hcurrent, hrest⟩ := h
    obtain ⟨proc, hproc⟩ := Option.isSome_iff_exists.mp hcurrent.1
    rw [snapshotFrom_succ, lapFrom, recordsOf_cons hproc, hproc, hcurrent.next_eq]
    dsimp only
    congr 1
    refine goes_on_eq (recordsOf host s off) fun hback => ih _ ?_
    rwa [if_neg hback] at hrest

theorem findPidFrom_eq (pid : U32) (bound : Nat) (current : U64)
    (h : ∀ a ∈ lapFrom (nextTask host s off) s.initTaskAddr bound current, TaskReadable host s off a) :
    findPidFrom host s off pid bound current =
      ((recordsOf host s off (lapFrom (nextTask host s off) s.initTaskAddr bound current)).find?
        (·.pid = pid)).map (·.taskAddr) := by
  induction bound generalizing current with
  | zero => rfl
  | succ bound ih =>
    rw [lapFrom, List.forall_mem_cons] at h
    obtain ⟨hcurrent, hrest⟩ := h
    obtain ⟨proc, hproc⟩ := Option.isSome_iff_exists.mp hcurrent.1
    obtain ⟨haddr, r, hread, hpid⟩ := readProcess_some hproc
    rw [lapFrom, recordsOf_cons hproc, List.find?_cons, findPidFrom, hread, hcurrent.next_eq]
    dsimp only
    by_cases hfound : proc.pid = pid
    · rw [hpid, if_pos hfound, decide_eq_true hfound]
      exact congrArg some haddr.symm
    · rw [hpid, if_neg hfound, decide_eq_false hfound]
      refine goes_on_eq (fun tasks => ((recordsOf host s off tasks).find? (·.pid = pid)).map (·.taskAddr))
        fun hback => ih _ ?_
      rwa [if_neg hback] at hrest

/-- Readable or not, there are no more records than room. -/
theorem length_snapshotFrom_le (room : Nat) (current : U64) : (snapshotFrom host s off room current).length ≤ room := by
  induction room generalizing current with
  | zero => exact Nat.le_refl 0
  | succ room ih =>
    rw [snapshotFrom_succ]
    split
    · exact Nat.zero_le _
    · split
      · exact Nat.zero_le _
      · rw [List.length_cons]
        split
        · exact Nat.succ_le_succ (ih _)
        · exact Nat.succ_le_succ (Nat.zero_le _)

theorem length_snapshotProcesses_le {maxTasks : Int} {procs : List VmiProcess}
    (h : snapshotProcesses host s off maxTasks = some procs) : procs.length ≤ maxTasks.toNat := by
  rw [snapshotProcesses] at h
  split at h
  · cases h
  · rw [← Option.some.inj h]
    exact length_snapshotFrom_le _ _

variable (host s off)

/-- **The walk of the task list.** -/
theorem task_list_walk (hread : ∀ a ∈ visitedTasks host s off, TaskReadable host s off a) :
    (visitedTasks host s off).length ≤ 4096 ∧
      (recordsOf host s off (visitedTasks host s off)).map (·.taskAddr) = visitedTasks host s off ∧
      snapshotProcesses host s off maxTaskSnapshot =
        (if s.initTaskAddr = 0 then none else some (recordsOf host s off (visitedTasks host s off))) ∧
      (∀ tasks : List U64, tasks.Nodup → s.initTaskAddr ∈ tasks.head? → Circular (nextTask host s off) tasks →
        tasks.length ≤ 4096 → visitedTasks host s off = tasks) ∧
      ∀ pid, taskWalkerFindPid host s off pid =
        if s.initTaskAddr = 0 then none
        else ((recordsOf host s off (visitedTasks host s off)).find? (·.pid = pid)).map (·.taskAddr) := by
  have hlap : lapFrom (nextTask host s off) s.initTaskAddr maxTaskSnapshot s.initTaskAddr = visitedTasks host s off :=
    lapFrom_eq_lap ..
  have hread' := hread
  rw [← hlap] at hread'
  refine ⟨length_lap_le .., ?_, ?_, ?_, ?_⟩
  · -- every task gives one record, which names it
    rw [recordsOf, List.map_filterMap]
    refine (List.filterMap_congr ?_).trans List.filterMap_some
    intro a ha
    obtain ⟨proc, hproc⟩ := Option.isSome_iff_exists.mp (hread a ha).1
    rw [hproc, Option.map_some, (readProcess_some hproc).1]
  · rw [snapshotProcesses]
    by_cases hinit : s.initTaskAddr = 0
    · rw [if_pos (Or.inr hinit), if_pos hinit]
    · rw [if_neg (by rintro (h | h); exacts [absurd h (by decide), hinit h]), if_neg hinit]
      exact congrArg some ((snapshotFrom_eq _ _ hread').trans (congrArg _ hlap))
  · intro tasks hnodup hhead hcircular hlen
    exact lap_of_circular hnodup hhead hcircular hlen
  · intro pid
    rw [taskWalkerFindPid]
    by_cases hinit : s.initTaskAddr = 0
    · rw [if_pos hinit, if_pos hinit]
    · rw [if_neg hinit, if_neg hinit, ← hlap]
      exact findPidFrom_eq pid _ _ hread'

/-! A guest with two tasks. -/

/-- One page of 1 GB at address 0, and two tasks that point to each other; the second has pid 7. -/
def twoTaskBytes : List (U64 × U8) :=
  [(0x1000, 0x03), (0x1001, 0x20), (0x2000, 0x83),
    (0x10298, 0x98), (0x10299, 0x02), (0x1029A, 0x02),
    (0x20298, 0x98), (0x20299, 0x02), (0x2029A, 0x01), (0x20398, 0x07)]

def twoTaskHost : Host where
  ownMemory := fun a => ((twoTaskBytes.find? (·.1 = a)).map (·.2)).getD 0
  qemuMemory := fun _ => 0
  processVmReadv := fun _ _ _ => .failed
  devMem := none

def twoTaskSession : TaskSession where
  memslots := [⟨0, 0x40000000, 0, 0, 0⟩]
  qemuPid := 0
  syscallTableGpa := 0
  syscallTableGva := 0
  nptArmed := false
  kaslrOffset := 0
  kernelPgd := 0x1000
  initTaskAddr := 0x10000

/-- Both tasks are visited and read, and pid 7 is found. -/
theorem task_list_walk_two_tasks :
    (∀ a ∈ visitedTasks twoTaskHost twoTaskSession offsets66, TaskReadable twoTaskHost twoTaskSession offsets66 a) ∧
      snapshotProcesses twoTaskHost twoTaskSession offsets66 maxTaskSnapshot =
        some (recordsOf twoTaskHost twoTaskSession offsets66 [0x10000, 0x20000]) ∧
      taskWalkerFindPid twoTaskHost twoTaskSession offsets66 7 = some 0x20000 := by
  have hvisited : visitedTasks twoTaskHost twoTaskSession offsets66 = [0x10000, 0x20000] := by decide +kernel
  have hread : ∀ a ∈ visitedTasks twoTaskHost twoTaskSession offsets66,
      TaskReadable twoTaskHost twoTaskSession offsets66 a := by
    rw [hvisited]
    exact List.forall_iff_forall_mem.mp (by decide +kernel)
  obtain ⟨-, -, hsnapshot, -, hfind⟩ := task_list_walk twoTaskHost twoTaskSession offsets66 hread
  refine ⟨hread, ?_, ?_⟩
  · rw [hsnapshot, hvisited]
    exact if_neg (by decide)
  · rw [hfind 7, hvisited]
    decide +kernel

end SentinelStack.Vmi
