import SentinelStack.Cc.ForkTrack
import SentinelStack.Cc.Hooks

/- Who is enforced: the processes of the machine against the hooks, with
   `system_wide` off.

   A process is denied something by some hook exactly when its TGID is in
   `target_pid_map` (`spared_iff`), and a key stays there after the process it
   was entered for is gone. Main result: `others_spared_iff` — over a run, no live
   process outside the loader's tree is ever denied, if and only if no fork
   outside the tree is given a TGID that the map still holds. -/
namespace SentinelStack.Cc
open SentinelStack.Lib

namespace Machine

/-- No hook calls `deny_action` for the process, whatever the constants besides `system_wide`, the
    other maps, its thread and its stacks are. -/
def Spared (s : Machine) (p : Process) : Prop :=
  ∀ (c : BpfConfig) (m : BpfMaps) (t : Thread) (h : Hook),
    c.systemWide = false → m.targetPid = s.targetPid.lookup → t.tgid = p.tgid → (h.run c m t).deny = none

def OthersSpared (s : Machine) : Prop := ∀ p ∈ s.live, ¬ p.Descends → s.Spared p

/-- A fork by a live process outside the tree takes a TGID that is not in the map. -/
def NoReuse (s : Machine) : ProcEvent → Prop
  | .fork parent tgid =>
    parent ∈ s.live → ¬ parent.Descends → tgid ∉ s.live.map Process.tgid → s.targetPid.lookup tgid = none
  | _ => True

variable {s : Machine}

/-- Without a key in the map no hook denies; with one, the hook on `ptrace` does. -/
theorem spared_iff {p : Process} : s.Spared p ↔ ¬ s.Tracked p := by
  constructor
  · intro hspared htracked
    have hkey : s.targetPid.lookup p.tgid ≠ none := Option.isSome_iff_ne_none.mp htracked
    have hdeny := hspared ⟨false, false, false, false, false⟩ { staticMaps with targetPid := s.targetPid.lookup }
      { staticThread with tgid := p.tgid } .ptrace rfl rfl rfl
    exact (denyMonitored_deny_iff .block).mpr hkey hdeny
  · intro huntracked c m t h hwide hmap htgid
    have hnone : m.targetPid t.tgid = none := by
      rw [hmap, htgid]
      exact Option.not_isSome_iff_eq_none.mp huntracked
    by_contra hdeny
    rcases h.run_eq c m t with ⟨-, hrun⟩ | ⟨-, eventType, hrun⟩
    · rw [hrun] at hdeny
      have hon := ((sentinelCheck_untracked hnone).mp hdeny).1
      rw [hwide] at hon
      cases hon
    · rw [hrun] at hdeny
      exact (denyMonitored_deny_iff eventType).mp hdeny hnone

theorem Spared.schedProcessFork {p : Process} (h : s.Spared p) {parentTgid childTgid : U32}
    (hne : (s.targetPid.lookup parentTgid).isSome → p.tgid ≠ childTgid) :
    (s.schedProcessFork parentTgid childTgid).Spared p := by
  rw [spared_iff] at h ⊢
  show ¬ ((sentinelForkTrack s.targetPid parentTgid childTgid).1.lookup p.tgid).isSome
  rw [sentinelForkTrack_map]
  split
  · next hparent =>
    rw [BoundedMap.lookup_put_ne (hne hparent)]
    exact h
  · exact h

theorem OthersSpared.step_fork_iff {parent : Process} {tgid : U32} (h : s.OthersSpared) :
    (s.step (.fork parent tgid)).OthersSpared ↔ s.NoReuse (.fork parent tgid) := by
  by_cases hfork : parent ∈ s.live ∧ tgid ∉ s.live.map Process.tgid
  · rw [step, dif_pos hfork]
    -- a process that was alive before has another TGID
    have hold : ∀ p ∈ s.live, ¬ p.Descends → (s.schedProcessFork parent.tgid tgid).Spared p := by
      intro p hlive hdesc
      refine (h p hlive hdesc).schedProcessFork fun _ heq => hfork.2 ?_
      rw [← heq]
      exact List.mem_map_of_mem hlive
    -- an unrelated parent is not in the map, so nothing is entered for its child
    have hnew : ¬ parent.Descends →
        ((s.schedProcessFork parent.tgid tgid).Spared (.forked parent tgid) ↔ s.targetPid.lookup tgid = none) := by
      intro hdesc
      have hparent := spared_iff.mp (h parent hfork.1 hdesc)
      rw [spared_iff]
      show ¬ ((sentinelForkTrack s.targetPid parent.tgid tgid).1.lookup tgid).isSome ↔ _
      rw [sentinelForkTrack_map, if_neg (show ¬ (s.targetPid.lookup parent.tgid).isSome from hparent)]
      exact Option.not_isSome_iff_eq_none
    constructor
    · intro hall hlive hdesc _
      exact (hnew hdesc).mp (hall (.forked parent tgid) List.mem_cons_self hdesc)
    · intro hfresh p hlive hdesc
      cases List.mem_cons.mp hlive with
      | inl hp =>
        subst hp
        exact (hnew hdesc).mpr (hfresh hfork.1 hdesc hfork.2)
      | inr hp => exact hold p hp hdesc
  · rw [step, dif_neg hfork]
    refine ⟨fun _ hlive _ hfree => absurd ⟨hlive, hfree⟩ hfork, fun _ => h⟩

/-- **One event.** It leaves the processes outside the tree spared if and only if it is no fork
    there that gets a TGID of the map. -/
theorem OthersSpared.step_iff (h : s.OthersSpared) (event : ProcEvent) :
    (s.step event).OthersSpared ↔ s.NoReuse event := by
  cases event with
  | fork parent tgid => exact h.step_fork_iff
  | cloneThread p =>
    refine ⟨fun _ => trivial, fun _ => ?_⟩
    show (if p ∈ s.live then s.schedProcessFork p.tgid p.tgid else s).OthersSpared
    split
    · intro q hlive hdesc
      have hq := h q hlive hdesc
      refine hq.schedProcessFork fun hp heq => spared_iff.mp hq ?_
      show (s.targetPid.lookup q.tgid).isSome
      rw [heq]
      exact hp
    · exact h
  | exec p => exact ⟨fun _ => trivial, fun _ => h⟩
  | exit p => exact ⟨fun _ => trivial, fun _ q hlive hdesc => h q (List.mem_of_mem_erase hlive) hdesc⟩
  | syscall p => exact ⟨fun _ => trivial, fun _ => h⟩

theorem othersSpared_enrolled (e : Enrolled) : e.machine.OthersSpared := by
  intro p hlive hdesc
  rw [spared_iff]
  cases List.mem_cons.mp hlive with
  | inl hchild =>
    rw [hchild] at hdesc
    exact absurd trivial hdesc
  | inr hother =>
    obtain ⟨tgid, hmem, rfl⟩ := List.mem_map.mp hother
    have hne : tgid ≠ e.child := by
      rintro rfl
      exact (List.nodup_cons.mp e.distinct).1 hmem
    show ¬ ((BoundedMap.empty.put e.child 1 : TargetPidMap).lookup tgid).isSome
    rw [BoundedMap.lookup_put_ne hne]
    exact Bool.false_ne_true

end Machine

/-- **Only monitored processes are enforced, exactly without reuse.** Wherever in a run of forks,
    exits, execs and syscalls a live process is neither the loader's child nor descended from it, no
    hook denies it anything; this holds of a run if and only if every fork outside the tree takes a
    TGID that `target_pid_map` does not hold. -/
theorem others_spared_iff (e : Enrolled) (events : List ProcEvent) :
    (∀ pre, pre <+: events → ∀ p ∈ (run Machine.step e.machine pre).live, ¬ p.Descends →
        (run Machine.step e.machine pre).Spared p) ↔
      Along Machine.step Machine.NoReuse e.machine events :=
  Along.iff_inv (I := Machine.OthersSpared) (fun _ event h => h.step_iff event) (Machine.othersSpared_enrolled e)

/-- The loader's child 1 forks 2, which exits. The process 7 is none of theirs, and is given 2 for
    its own child. -/
def reusedPid : List ProcEvent :=
  [.fork (.child 1) 2, .exit (.forked (.child 1) 2), .fork (.other 7) 2]

theorem reused_pid_denied :
    .forked (.other 7) 2 ∈ (run Machine.step (Enrolled.machine ⟨1, [7], by decide⟩) reusedPid).live ∧
      ¬ (Process.forked (.other 7) 2).Descends ∧
      ¬ (run Machine.step (Enrolled.machine ⟨1, [7], by decide⟩) reusedPid).Spared (.forked (.other 7) 2) := by
  refine ⟨by decide +kernel, by decide, fun hspared => ?_⟩
  exact Machine.spared_iff.mp hspared (by decide +kernel)

end SentinelStack.Cc
