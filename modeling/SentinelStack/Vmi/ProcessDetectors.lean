import SentinelStack.Vmi.PrivilegeBaseline
import SentinelStack.Lib.FirstBy
import Mathlib.Dynamics.PeriodicPts.Defs

/- The detectors that read one snapshot of the process list (`task_walker.c`):
   orphans, whose parent is not in the snapshot, and fork bombs, whose children are
   as many as the threshold.

   A snapshot stops at the first task that cannot be read and at 4096 tasks, and
   nothing tells the detectors that it did. Against what is read stands the guest's
   own list (`GuestTasks`): the reads that succeed agree with it, the others say
   nothing. Main results:

   * `orphan_alerts_sound_iff` — every process reported as an orphan is one if and
     only if no task that is recorded has its parent among the tasks that are not,
     and only there. A task is recorded if it is one of the first 4096, all tasks up
     to it can be read and the list does not come back before it (`Recorded`). It is
     so where the snapshot is a whole lap of the list (`orphan_alerts_sound_of_lap`),
     and not in `cut_off_parent`.
   * `fork_bomb_exact` — the pids reported are those with enough children in the
     snapshot, each once and in the order of their first occurrence. -/
namespace SentinelStack.Vmi
open SentinelStack.Lib

def defaultForkBombThreshold : U32 := 256

def pidExists (procs : List VmiProcess) (pid : U32) : Bool := procs.any (·.pid = pid)

theorem pidExists_iff {procs : List VmiProcess} {pid : U32} :
    pidExists procs pid = true ↔ pid ∈ procs.map (·.pid) := by
  rw [pidExists, List.any_eq_true, List.mem_map]
  simp only [decide_eq_true_eq]

/-! Orphans. -/

/-- `snprintf(reason, 96, "orphan_process pid=%u ppid=%u", …)`. -/
def orphanSignal (proc : VmiProcess) : PrivilegeSignal :=
  ⟨proc.pid, (ascii "orphan_process pid=" ++ fmtDec proc.pid.toNat ++ ascii " ppid=" ++ fmtDec proc.ppid.toNat).take 95⟩

/-- The loop over the snapshot: the signals, and how many detections it counts. -/
def orphanLoop (procs : List VmiProcess) : List VmiProcess → List PrivilegeSignal × Nat
  | [] => ([], 0)
  | proc :: rest =>
    let later := orphanLoop procs rest
    if proc.ppid ≤ 1 then later
    else if ¬ pidExists procs proc.ppid then (orphanSignal proc :: later.1, later.2 + 1)
    else later

/-- `none` is the return value -1. -/
def taskWalkerDetectOrphans (call : DetectCall) : Option (List PrivilegeSignal × Nat) :=
  (takeSnapshot call).map fun snapshot => orphanLoop snapshot.val snapshot.val

/-- The processes a snapshot has no parent for. -/
def orphansOf (procs : List VmiProcess) : List VmiProcess :=
  procs.filter fun proc => 1 < proc.ppid ∧ ¬ pidExists procs proc.ppid

theorem orphanLoop_eq (procs rest : List VmiProcess) :
    orphanLoop procs rest =
      ((rest.filter fun proc => 1 < proc.ppid ∧ ¬ pidExists procs proc.ppid).map orphanSignal,
        (rest.filter fun proc => 1 < proc.ppid ∧ ¬ pidExists procs proc.ppid).length) := by
  induction rest with
  | nil => rfl
  | cons proc rest ih =>
    rw [orphanLoop, ih, List.filter_cons]
    dsimp only
    by_cases hinit : proc.ppid ≤ 1
    · have hnot : ¬ (1 < proc.ppid ∧ ¬ pidExists procs proc.ppid) := fun h => BitVec.not_lt.mpr hinit h.1
      rw [if_pos hinit, decide_eq_false hnot]
      rfl
    · rw [if_neg hinit]
      by_cases hexists : pidExists procs proc.ppid = true
      · have hnot : ¬ (1 < proc.ppid ∧ ¬ pidExists procs proc.ppid) := fun h => h.2 hexists
        rw [if_neg (not_not_intro hexists), decide_eq_false hnot]
        rfl
      · have horphan : 1 < proc.ppid ∧ ¬ pidExists procs proc.ppid := ⟨BitVec.not_le.mp hinit, hexists⟩
        rw [if_pos hexists, decide_eq_true horphan]
        rfl

/-! The guest's list. -/

/-- The tasks as the guest has them, readable or not: where each leads, and its pid. -/
structure GuestTasks where
  next : U64 → U64
  pid : U64 → U32

namespace GuestTasks

/-- A read that succeeds gives what the guest has. -/
structure Agrees (guest : GuestTasks) (call : DetectCall) : Prop where
  next_eq : ∀ a next, readTasksNext call.host call.session call.offsets a = some next → next = guest.next a
  pid_eq : ∀ a proc, taskWalkerReadProcess call.host call.session call.offsets a = some proc → proc.pid = guest.pid a

/-- The task that is `k` steps down the list from `init_task`. -/
def task (guest : GuestTasks) (call : DetectCall) (k : Nat) : U64 := guest.next^[k] call.session.initTaskAddr

/-- The walk comes to task `i` and reads it: it is one of the first 4096, all tasks up to it can be
    read, and the list has not come back to `init_task` before it. -/
structure Recorded (guest : GuestTasks) (call : DetectCall) (i : Nat) : Prop where
  room : i < maxTaskSnapshot
  readable : ∀ j ≤ i, TaskReadable call.host call.session call.offsets (guest.task call j)
  onLap : ∀ j, 0 < j → j ≤ i → guest.task call j ≠ call.session.initTaskAddr

end GuestTasks

section snapshot

variable {call : DetectCall} {guest : GuestTasks} (hagrees : guest.Agrees call)
include hagrees

/-- One turn of the walk. -/
theorem snapshotFrom_cases (room : Nat) (current : U64) :
    (¬ TaskReadable call.host call.session call.offsets current ∧
        snapshotFrom call.host call.session call.offsets (room + 1) current = []) ∨
      ∃ proc, TaskReadable call.host call.session call.offsets current ∧
        taskWalkerReadProcess call.host call.session call.offsets current = some proc ∧
        snapshotFrom call.host call.session call.offsets (room + 1) current =
          proc :: if guest.next current ≠ call.session.initTaskAddr then
            snapshotFrom call.host call.session call.offsets room (guest.next current) else [] := by
  rw [snapshotFrom_succ]
  cases hproc : taskWalkerReadProcess call.host call.session call.offsets current with
  | none => exact .inl ⟨fun h => by simp [TaskReadable, hproc] at h, rfl⟩
  | some proc =>
    cases hnext : readTasksNext call.host call.session call.offsets current with
    | none => exact .inl ⟨fun h => by simp [TaskReadable, hnext] at h, rfl⟩
    | some next =>
      refine .inr ⟨proc, ⟨by rw [hproc]; rfl, by rw [hnext]; rfl⟩, rfl, ?_⟩
      rw [hagrees.next_eq current next hnext]

theorem snapshotFrom_getElem? (room : Nat) (current : U64) (i : Nat) (proc : VmiProcess)
    (h : (snapshotFrom call.host call.session call.offsets room current)[i]? = some proc) :
    taskWalkerReadProcess call.host call.session call.offsets (guest.next^[i] current) = some proc := by
  induction room generalizing current i with
  | zero => cases h
  | succ room ih =>
    obtain ⟨-, hempty⟩ | ⟨record, -, hproc, hrecords⟩ := snapshotFrom_cases hagrees room current
    · rw [hempty] at h
      cases h
    · rw [hrecords] at h
      cases i with
      | zero => exact hproc.trans h
      | succ i =>
        rw [Function.iterate_succ_apply]
        rw [List.getElem?_cons_succ] at h
        split at h
        · exact ih _ i h
        · cases h

/-- How far a snapshot goes. -/
theorem lt_length_snapshotFrom_iff (room : Nat) (current : U64) (i : Nat) :
    i < (snapshotFrom call.host call.session call.offsets room current).length ↔
      i < room ∧ (∀ j ≤ i, TaskReadable call.host call.session call.offsets (guest.next^[j] current)) ∧
        ∀ j, 0 < j → j ≤ i → guest.next^[j] current ≠ call.session.initTaskAddr := by
  induction room generalizing current i with
  | zero => simp [snapshotFrom]
  | succ room ih =>
    obtain ⟨hunreadable, hempty⟩ | ⟨record, hreadable, -, hrecords⟩ := snapshotFrom_cases hagrees room current
    · rw [hempty]
      exact iff_of_false (Nat.not_lt_zero i) fun h => hunreadable (h.2.1 0 (Nat.zero_le i))
    · rw [hrecords, List.length_cons]
      cases i with
      | zero =>
        refine iff_of_true (Nat.succ_pos _) ⟨Nat.succ_pos _, fun j hj => ?_, fun j hpos hj => by omega⟩
        rw [Nat.le_zero.mp hj]
        exact hreadable
      | succ i =>
        rw [Nat.succ_lt_succ_iff, Nat.succ_lt_succ_iff, forall_iterate_succ, and_iff_right hreadable,
          iterate_ne_succ]
        by_cases hback : guest.next current = call.session.initTaskAddr
        · rw [if_neg (not_not_intro hback)]
          exact iff_of_false (Nat.not_lt_zero i) fun h => h.2.2.1 hback
        · rw [if_pos hback, ih, and_iff_right hback]

end snapshot

theorem takeSnapshot_val {call : DetectCall} {snapshot : Snapshot} (h : takeSnapshot call = some snapshot) :
    snapshot.val = snapshotFrom call.host call.session call.offsets maxTaskSnapshot call.session.initTaskAddr := by
  rw [takeSnapshot] at h
  split at h
  · cases h
  · split at h
    · cases h
    next procs hprocs =>
      rw [← Option.some.inj h]
      rw [snapshotProcesses] at hprocs
      split at hprocs
      · cases hprocs
      · exact (Option.some.inj hprocs).symm

section orphans

variable {call : DetectCall} {guest : GuestTasks} (hagrees : guest.Agrees call) {snapshot : Snapshot}
  (h : takeSnapshot call = some snapshot)
include hagrees h

theorem lt_length_snapshot_iff (i : Nat) : i < snapshot.val.length ↔ guest.Recorded call i := by
  rw [takeSnapshot_val h, lt_length_snapshotFrom_iff hagrees]
  exact ⟨fun hi => ⟨hi.1, hi.2.1, hi.2.2⟩, fun hi => ⟨hi.room, hi.readable, hi.onLap⟩⟩

theorem snapshot_getElem? {i : Nat} {proc : VmiProcess} (hi : snapshot.val[i]? = some proc) :
    taskWalkerReadProcess call.host call.session call.offsets (guest.task call i) = some proc := by
  rw [takeSnapshot_val h] at hi
  exact snapshotFrom_getElem? hagrees _ _ i proc hi

theorem pidExists_snapshot (pid : U32) :
    pidExists snapshot.val pid = true ↔ ∃ j, guest.Recorded call j ∧ guest.pid (guest.task call j) = pid := by
  have hread : ∀ (i : Nat) (proc : VmiProcess), snapshot.val[i]? = some proc → proc.pid = guest.pid (guest.task call i) :=
    fun i proc hi => hagrees.pid_eq _ proc (snapshot_getElem? hagrees h hi)
  rw [pidExists, List.any_eq_true]
  simp only [decide_eq_true_eq, ← lt_length_snapshot_iff hagrees h]
  constructor
  · rintro ⟨proc, hmem, rfl⟩
    obtain ⟨i, hi, hproc⟩ := List.getElem_of_mem hmem
    refine ⟨i, hi, (hread i proc ?_).symm⟩
    rw [List.getElem?_eq_getElem hi, hproc]
  · rintro ⟨j, hj, rfl⟩
    exact ⟨snapshot.val[j], List.getElem_mem hj, hread j _ (List.getElem?_eq_getElem hj)⟩

end orphans

/-- **When an orphan is one.** -/
theorem orphan_alerts_sound_iff (call : DetectCall) (guest : GuestTasks) (hagrees : guest.Agrees call)
    (snapshot : Snapshot) (h : takeSnapshot call = some snapshot) :
    taskWalkerDetectOrphans call =
        some ((orphansOf snapshot.val).map orphanSignal, (orphansOf snapshot.val).length) ∧
      ((∀ proc ∈ orphansOf snapshot.val, ∀ k, guest.pid (guest.task call k) ≠ proc.ppid) ↔
        ∀ i, guest.Recorded call i →
          let ppid := readPpid call.host call.session call.offsets (guest.task call i)
          1 < ppid → ∀ k, guest.pid (guest.task call k) = ppid →
            ∃ j, guest.Recorded call j ∧ guest.pid (guest.task call j) = ppid) := by
  constructor
  · rw [taskWalkerDetectOrphans, h, Option.map_some, orphanLoop_eq]
    rfl
  · constructor
    · intro hsound i hrecorded ppid hppid k hparent
      have hi := (lt_length_snapshot_iff hagrees h i).mpr hrecorded
      have hread := readProcess_ppid (snapshot_getElem? hagrees h (List.getElem?_eq_getElem hi))
      rw [← pidExists_snapshot hagrees h]
      by_contra habsent
      refine hsound snapshot.val[i] (List.mem_filter.mpr ⟨List.getElem_mem hi, decide_eq_true ?_⟩) k ?_
      · rw [hread]
        exact ⟨hppid, habsent⟩
      · rw [hread]
        exact hparent
    · intro hseen proc horphan k hparent
      obtain ⟨hmem, htest⟩ := List.mem_filter.mp horphan
      obtain ⟨hppid, habsent⟩ := of_decide_eq_true htest
      obtain ⟨i, hi, rfl⟩ := List.getElem_of_mem hmem
      have hread := readProcess_ppid (snapshot_getElem? hagrees h (List.getElem?_eq_getElem hi))
      rw [hread] at hppid habsent hparent
      exact habsent ((pidExists_snapshot hagrees h _).mpr
        (hseen i ((lt_length_snapshot_iff hagrees h i).mp hi) hppid k hparent))

/-- A snapshot of a whole lap leaves no task out. -/
theorem orphan_alerts_sound_of_lap {call : DetectCall} {guest : GuestTasks} (hagrees : guest.Agrees call)
    {snapshot : Snapshot} (h : takeSnapshot call = some snapshot) (hpos : 0 < snapshot.val.length)
    (hlap : guest.task call snapshot.val.length = guest.task call 0) :
    ∀ proc ∈ orphansOf snapshot.val, ∀ k, guest.pid (guest.task call k) ≠ proc.ppid := by
  intro proc horphan k hparent
  obtain ⟨-, htest⟩ := List.mem_filter.mp horphan
  refine (of_decide_eq_true htest).2 ((pidExists_snapshot hagrees h _).mpr ?_)
  refine ⟨k % snapshot.val.length, (lt_length_snapshot_iff hagrees h _).mp (Nat.mod_lt k hpos), ?_⟩
  have hperiod : Function.IsPeriodicPt guest.next snapshot.val.length call.session.initTaskAddr := hlap
  rw [GuestTasks.task, hperiod.iterate_mod_apply]
  exact hparent

/-- A guest whose tasks are what can be read of them, field by field. -/
def guestOf (call : DetectCall) : GuestTasks where
  next := nextTask call.host call.session call.offsets
  pid := fun a => (readTaskField call.host call.session a call.offsets.pidOffset 4).u32

theorem guestOf_agrees (call : DetectCall) : (guestOf call).Agrees call where
  next_eq := by
    intro a next hnext
    simp only [guestOf, nextTask, hnext, Option.getD_some]
  pid_eq := by
    intro a proc hproc
    obtain ⟨-, r, hr, hpid⟩ := readProcess_some hproc
    rw [ReadResult.require] at hr
    split at hr
    · rw [← hpid, ← Option.some.inj hr]
      rfl
    · cases hr

/-- Three tasks in a ring, the second a child of the third. -/
def threeTaskBytes : List (U64 × U8) :=
  [(0x1000, 0x03), (0x1001, 0x20), (0x2000, 0x83),
    (0x10298, 0x98), (0x10299, 0x02), (0x1029A, 0x02),
    (0x20298, 0x98), (0x20299, 0x02), (0x2029A, 0x03), (0x20398, 0x05), (0x202B2, 0x03),
    (0x30298, 0x98), (0x30299, 0x02), (0x3029A, 0x01), (0x30398, 0x07)]

/-- Memory ends in the third task, behind its pid and before its name. -/
def cutOffCall (memory : U64) : DetectCall where
  host := { twoTaskHost with ownMemory := fun a => ((threeTaskBytes.find? (·.1 = a)).map (·.2)).getD 0 }
  session := { twoTaskSession with memslots := [⟨0, memory, 0, 0, 0⟩] }
  offsets := offsets66
  callocOk := true

theorem threeTask_ids : (takeSnapshot (cutOffCall 0x40000000)).map (·.val.map fun proc => (proc.pid, proc.ppid)) =
    some [(0, 0), (5, 7), (7, 0)] := by decide +kernel

/-- Where all three tasks can be read, the child is no orphan. -/
theorem orphan_alerts_sound_iff_three_tasks :
    ∃ snapshot, takeSnapshot (cutOffCall 0x40000000) = some snapshot ∧
      snapshot.val.map (fun proc => (proc.pid, proc.ppid)) = [(0, 0), (5, 7), (7, 0)] ∧
      ∀ proc ∈ orphansOf snapshot.val, ∀ k,
        (guestOf (cutOffCall 0x40000000)).pid ((guestOf (cutOffCall 0x40000000)).task (cutOffCall 0x40000000) k) ≠
          proc.ppid := by
  obtain ⟨snapshot, hsnapshot, hlist⟩ := Option.map_eq_some_iff.mp threeTask_ids
  have hlen : snapshot.val.length = 3 := by
    rw [← List.length_map, hlist]
    rfl
  have hagrees := guestOf_agrees (cutOffCall 0x40000000)
  have hrecorded := lt_length_snapshot_iff hagrees hsnapshot
  obtain ⟨-, hiff⟩ := orphan_alerts_sound_iff _ _ hagrees snapshot hsnapshot
  refine ⟨snapshot, hsnapshot, hlist, hiff.mpr ?_⟩
  intro i hi ppid hppid k _
  -- what is read of the parent is what the record has
  obtain ⟨proc, hproc⟩ : ∃ proc, snapshot.val[i]? = some proc := ⟨_, List.getElem?_eq_getElem ((hrecorded i).mpr hi)⟩
  have hread : proc.ppid = ppid := readProcess_ppid (snapshot_getElem? hagrees hsnapshot hproc)
  have hpair : (proc.pid, proc.ppid) ∈ [((0 : U32), (0 : U32)), (5, 7), (7, 0)] :=
    hlist ▸ List.mem_map_of_mem (List.mem_of_getElem? hproc)
  rw [← hread] at hppid ⊢
  have hparent : proc.ppid = 7 := by
    simp only [List.mem_cons, List.not_mem_nil, or_false, Prod.mk.injEq] at hpair
    rcases hpair with ⟨-, h⟩ | ⟨-, h⟩ | ⟨-, h⟩
    · exact absurd hppid (by rw [h]; decide)
    · exact h
    · exact absurd hppid (by rw [h]; decide)
  refine ⟨2, (hrecorded 2).mp (by rw [hlen]; decide), ?_⟩
  rw [hparent]
  decide +kernel

/-- **An orphan whose parent is in the list.** The name of the parent cannot be read, the snapshot
    stops there, and the child is reported. -/
theorem cut_off_parent :
    taskWalkerDetectOrphans (cutOffCall 0x30400) = some ([⟨5, ascii "orphan_process pid=5 ppid=7"⟩], 1) ∧
      ((takeSnapshot (cutOffCall 0x30400)).map fun snapshot =>
        (orphansOf snapshot.val).map fun proc => (proc.pid, proc.ppid)) = some [(5, 7)] ∧
      (List.range 4).map ((guestOf (cutOffCall 0x30400)).task (cutOffCall 0x30400)) =
        [0x10000, 0x20000, 0x30000, 0x10000] ∧
      (guestOf (cutOffCall 0x30400)).pid 0x30000 = 7 := by
  decide +kernel

/-! Fork bombs. -/

/-- `snprintf(reason, 96, "fork_bomb pid=%u children=%u", …)`. -/
def forkBombSignal (pid children : U32) : PrivilegeSignal :=
  ⟨pid, (ascii "fork_bomb pid=" ++ fmtDec pid.toNat ++ ascii " children=" ++ fmtDec children.toNat).take 95⟩

/-- The inner loop that counts the children of a pid. -/
def countChildren (procs : List VmiProcess) (parentPid : U32) : U32 :=
  procs.foldl (fun children proc => if proc.ppid = parentPid then children + 1 else children) 0

/-- The outer loop, with the processes it has passed. -/
def forkBombLoop (procs : List VmiProcess) (threshold : U32) :
    (before rest : List VmiProcess) → List PrivilegeSignal × Nat
  | _, [] => ([], 0)
  | before, proc :: rest =>
    let later := forkBombLoop procs threshold (before ++ [proc]) rest
    if proc.pid = 0 then later
    -- already counted
    else if pidExists before proc.pid then later
    else
      let children := countChildren procs proc.pid
      if children ≥ threshold then (forkBombSignal proc.pid children :: later.1, later.2 + 1) else later

/-- `none` is the return value -1. -/
def taskWalkerDetectForkBomb (call : DetectCall) (threshold : U32) : Option (List PrivilegeSignal × Nat) :=
  let threshold := if threshold = 0 then defaultForkBombThreshold else threshold
  (takeSnapshot call).map fun snapshot => forkBombLoop snapshot.val threshold [] snapshot.val

def childCount (procs : List VmiProcess) (pid : U32) : Nat := procs.countP (·.ppid = pid)

theorem toNat_foldl_count (p : VmiProcess → Prop) [DecidablePred p] (procs : List VmiProcess) (n : U32)
    (h : n.toNat + procs.length < 2 ^ 32) :
    (procs.foldl (fun n proc => if p proc then n + 1 else n) n).toNat = n.toNat + procs.countP (p ·) := by
  induction procs generalizing n with
  | nil => rfl
  | cons proc rest ih =>
    rw [List.length_cons] at h
    rw [List.foldl_cons, List.countP_cons]
    by_cases hp : p proc
    · have hsucc : (n + 1).toNat = n.toNat + 1 := toNat_succ (by omega)
      rw [if_pos hp, ih _ (by omega), hsucc, if_pos (decide_eq_true hp)]
      omega
    · rw [if_neg hp, ih _ (by omega), if_neg (by simp [hp])]
      rfl

theorem toNat_countChildren (snapshot : Snapshot) (pid : U32) :
    (countChildren snapshot.val pid).toNat = childCount snapshot.val pid := by
  have hlen : snapshot.val.length < 2 ^ 32 := Nat.lt_of_le_of_lt snapshot.property (by decide)
  have hzero : (0 : U32).toNat = 0 := rfl
  have hcount := toNat_foldl_count (·.ppid = pid) snapshot.val 0 (by rwa [hzero, Nat.zero_add])
  rw [hzero, Nat.zero_add] at hcount
  exact hcount

def forkBombParents (procs : List VmiProcess) (threshold : U32) (before rest : List VmiProcess) : List VmiProcess :=
  (firstsBy (·.pid) (before.map (·.pid)) rest).filter fun proc =>
    proc.pid ≠ 0 ∧ threshold ≤ countChildren procs proc.pid

theorem forkBombLoop_eq (procs : List VmiProcess) (threshold : U32) (before rest : List VmiProcess) :
    forkBombLoop procs threshold before rest =
      ((forkBombParents procs threshold before rest).map fun proc =>
          forkBombSignal proc.pid (countChildren procs proc.pid),
        (forkBombParents procs threshold before rest).length) := by
  induction rest generalizing before with
  | nil => rfl
  | cons proc rest ih =>
    have hlater := ih (before ++ [proc])
    rw [forkBombParents, List.map_append, List.map_singleton] at hlater
    rw [forkBombLoop, hlater, forkBombParents, firstsBy]
    dsimp only
    by_cases hseen : pidExists before proc.pid = true
    · rw [if_pos (pidExists_iff.mp hseen), if_pos hseen, ite_self]
    · rw [if_neg (fun h => hseen (pidExists_iff.mpr h)), if_neg hseen, List.filter_cons]
      by_cases hzero : proc.pid = 0
      · rw [if_pos hzero, decide_eq_false (fun h => h.1 hzero)]
        rfl
      · rw [if_neg hzero]
        by_cases hmany : countChildren procs proc.pid ≥ threshold
        · rw [if_pos hmany, decide_eq_true ⟨hzero, hmany⟩]
          rfl
        · rw [if_neg hmany, decide_eq_false (fun h => hmany h.2)]
          rfl

/-- **Fork bombs, exactly.** -/
theorem fork_bomb_exact (call : DetectCall) (threshold : U32) (snapshot : Snapshot)
    (h : takeSnapshot call = some snapshot) :
    ∃ signals, taskWalkerDetectForkBomb call threshold = some (signals, signals.length) ∧
      (∀ pid, pid ∈ signals.map (·.pid) ↔
        pid ≠ 0 ∧ pid ∈ snapshot.val.map (·.pid) ∧
          (if threshold = 0 then defaultForkBombThreshold else threshold).toNat ≤ childCount snapshot.val pid) ∧
      (signals.map (·.pid)).Nodup ∧
      (signals.map (·.pid)).Pairwise fun a b =>
        (snapshot.val.map (·.pid)).idxOf a < (snapshot.val.map (·.pid)).idxOf b := by
  generalize hlimit : (if threshold = 0 then defaultForkBombThreshold else threshold) = limit
  have hpids : ((forkBombParents snapshot.val limit [] snapshot.val).map fun proc =>
      forkBombSignal proc.pid (countChildren snapshot.val proc.pid)).map (·.pid) =
        (forkBombParents snapshot.val limit [] snapshot.val).map (·.pid) := by
    rw [List.map_map]
    rfl
  have horder : ((forkBombParents snapshot.val limit [] snapshot.val).map (·.pid)).Pairwise fun a b =>
      (snapshot.val.map (·.pid)).idxOf a < (snapshot.val.map (·.pid)).idxOf b :=
    (pairwise_firstsBy [] snapshot.val).sublist (List.filter_sublist.map _)
  refine ⟨(forkBombParents snapshot.val limit [] snapshot.val).map fun proc =>
    forkBombSignal proc.pid (countChildren snapshot.val proc.pid), ?_, ?_, ?_, ?_⟩
  · rw [taskWalkerDetectForkBomb, h, hlimit, Option.map_some, forkBombLoop_eq, List.length_map]
  · intro pid
    rw [hpids, ← toNat_countChildren]
    constructor
    · intro hmem
      obtain ⟨proc, hproc, rfl⟩ := List.mem_map.mp hmem
      obtain ⟨hfirst, htest⟩ := List.mem_filter.mp hproc
      obtain ⟨hzero, hmany⟩ := of_decide_eq_true htest
      exact ⟨hzero, (mem_keys_firstsBy.mp (List.mem_map_of_mem hfirst)).1, hmany⟩
    · rintro ⟨hzero, hmem, hmany⟩
      obtain ⟨proc, hproc, rfl⟩ := List.mem_map.mp (mem_keys_firstsBy.mpr ⟨hmem, List.not_mem_nil⟩)
      exact List.mem_map_of_mem (List.mem_filter.mpr ⟨hproc, decide_eq_true ⟨hzero, hmany⟩⟩)
  · rw [hpids]
    exact horder.imp fun hlt heq => absurd (heq ▸ hlt) (Nat.lt_irrefl _)
  · rw [hpids]
    exact horder

theorem fork_bomb_exact_three_tasks :
    ∃ snapshot signals, takeSnapshot (cutOffCall 0x40000000) = some snapshot ∧
      taskWalkerDetectForkBomb (cutOffCall 0x40000000) 1 = some (signals, signals.length) ∧
      (7 : U32) ∈ signals.map (·.pid) ∧ (5 : U32) ∉ signals.map (·.pid) := by
  obtain ⟨snapshot, hsnapshot, hlist⟩ := Option.map_eq_some_iff.mp threeTask_ids
  obtain ⟨signals, hdetect, hpids, -⟩ := fork_bomb_exact (cutOffCall 0x40000000) 1 snapshot hsnapshot
  have hpid : snapshot.val.map (·.pid) = [0, 5, 7] := by
    have hfst := congrArg (List.map Prod.fst) hlist
    rwa [List.map_map] at hfst
  have hcount : ∀ pid, childCount snapshot.val pid = [(0 : U32), 7, 0].countP (· = pid) := by
    intro pid
    have hsnd := congrArg (List.map Prod.snd) hlist
    rw [List.map_map] at hsnd
    rw [← show [((0 : U32), (0 : U32)), (5, 7), (7, 0)].map Prod.snd = [0, 7, 0] from rfl, ← hsnd, List.countP_map]
    rfl
  refine ⟨snapshot, signals, hsnapshot, hdetect, ?_, ?_⟩
  · rw [hpids, hpid, hcount]
    decide
  · rw [hpids, hpid, hcount]
    decide

end SentinelStack.Vmi
