import SentinelStack.Cc.ForkTrack

/- The start-up of the loader: `main` from the attached BPF programs to its exit,
   every call by its outcome, and the child through it.

   A child that is stopped under ptrace runs on when its tracer exits, and the
   exit takes the BPF programs away. Main result: `fail_closed_iff` — the child is
   never left running without enforcement, over a run, if and only if no step of
   the run is one of six: a failure of the main map's creation, of its
   registration or of the libc map's with a live child, a detach with
   `--cgroup` and an empty `cgroup_map`, a `SIGHUP` during the plain wait, and a
   termination signal that the child survives. -/
namespace SentinelStack.Cc
open SentinelStack.Lib

/-- What is left of `argv` by the time of the fork. `ringBuffer`: audit mode, and
    `ring_buffer__new` succeeded. -/
structure StartOptions where
  cgroupFilter : Bool
  surfaceReport : Bool
  ringBuffer : Bool

inductive ChildStatus where
  | absent
  | stopped
  | running
  deriving DecidableEq, Repr

namespace ChildStatus

def stop : ChildStatus → ChildStatus
  | absent => absent
  | _ => stopped

/-- After a detach, or the exit of the tracer. -/
def resume : ChildStatus → ChildStatus
  | stopped => running
  | c => c

end ChildStatus

/-- The call `main` makes next. `waitLibc` counts its steps, `loadLibs` the module ids given. -/
inductive StartPhase where
  | populateCgroup
  | fork
  | waitTrap
  | waitLibc (steps : Nat)
  | createMain
  | registerMain
  | loadMain
  | createLibc
  | registerLibc
  | loadLibs (nextModId : U32)
  | trackPid
  | detach
  | waiting
  | exited
  deriving DecidableEq, Repr

/-- `cgroup_map`: cgroup id → 1, `max_entries` 256. -/
abbrev CgroupMap : Type := BoundedMap U64 U32 256

/-- `registry` holds the ids of the modules with a policy map in `policy_registry`. -/
structure StartUp where
  phase : StartPhase
  child : ChildStatus
  gChild : U32
  libcBase : U64
  attached : Bool
  cgroupMap : CgroupMap
  registry : List U32
  targetPidMap : TargetPidMap

/-- The outcomes of the calls, and what happens to the loader and the child besides. -/
inductive StartEvent where
  /-- `stat` of the `--cgroup` path, and the update of `cgroup_map` with its inode. -/
  | cgroupStat (inode : Option U64) (updated : Bool)
  | forked (pid : Option U32)
  /-- The child's first stop; `false` when it was no `SIGTRAP` stop. -/
  | execTrap (sigtrap : Bool)
  /-- One round of the wait for libc: the base found, or whether the child exited in the step. -/
  | libcPoll (base : U64) (childExited : Bool)
  | mapCreated (ok : Bool)
  | registryUpdated (ok : Bool)
  | mainLoaded
  | library (created registered : Bool)
  | librariesDone
  | pidTracked (ok : Bool)
  | detached
  | childDied
  | sighup
  /-- `SIGINT` or `SIGTERM`, passed on to the child as `SIGTERM`. -/
  | terminated (childSurvives : Bool)

def ptraceStepLimit : Nat := 10000

namespace StartUp

/-- The programs are attached and nothing is forked. -/
def start : StartUp := ⟨.populateCgroup, .absent, 0, 0, true, .empty, [], .empty⟩

/-- `kill(g_child, SIGKILL)` and the wait for it. -/
def killChild (s : StartUp) : StartUp := { s with child := .absent }

/-- `cleanup:` and every other return of `main`: the skeleton is destroyed, and a child that is
    still traced runs on. -/
def exit (s : StartUp) : StartUp := { s with phase := .exited, attached := false, child := s.child.resume }

def goto (s : StartUp) (phase : StartPhase) : StartUp := { s with phase := phase }

/-- The outcome of a call, at the place `main` makes it; elsewhere it is none. -/
def step (o : StartOptions) (s : StartUp) : StartEvent → StartUp
  | .cgroupStat inode updated =>
    match s.phase with
    | .populateCgroup =>
      match inode with
      | some cgid =>
        if o.cgroupFilter ∧ updated then { s.goto .fork with cgroupMap := s.cgroupMap.put cgid 1 } else s.goto .fork
      | none => s.goto .fork
    | _ => s
  | .forked pid =>
    match s.phase with
    | .fork =>
      match pid with
      | some pid => { s.goto .waitTrap with gChild := pid, child := .running }
      | none => s.exit
    | _ => s
  | .execTrap sigtrap =>
    match s.phase with
    | .waitTrap => if sigtrap then { s.goto (.waitLibc 0) with child := s.child.stop } else s.killChild.exit
    | _ => s
  | .libcPoll base childExited =>
    match s.phase with
    | .waitLibc steps =>
      if base ≠ 0 then { s.goto .createMain with libcBase := base }
      else if childExited then (s.goto .createMain).killChild
      else if steps + 1 > ptraceStepLimit then s.goto .createMain
      else s.goto (.waitLibc (steps + 1))
    | _ => s
  | .mapCreated ok =>
    match s.phase with
    | .createMain => if ok then s.goto .registerMain else s.exit
    | .createLibc => if ok then s.goto .registerLibc else s.goto (.loadLibs moduleDynamicBase)
    | _ => s
  | .registryUpdated ok =>
    match s.phase with
    | .registerMain => if ok then { s.goto .loadMain with registry := moduleMain :: s.registry } else s.exit
    | .registerLibc =>
      if ok then { s.goto (.loadLibs moduleDynamicBase) with registry := moduleLibc :: s.registry } else s.exit
    | _ => s
  | .mainLoaded =>
    match s.phase with
    | .loadMain =>
      if o.surfaceReport then s.killChild.exit
      else if s.libcBase ≠ 0 then s.goto .createLibc
      else s.goto (.loadLibs moduleDynamicBase)
    | _ => s
  | .library created registered =>
    match s.phase with
    | .loadLibs modId =>
      if modId < 64 ∧ created ∧ registered then { s.goto (.loadLibs (modId + 1)) with registry := modId :: s.registry }
      else s
    | _ => s
  | .librariesDone =>
    match s.phase with
    | .loadLibs _ => s.goto .trackPid
    | _ => s
  | .pidTracked ok =>
    match s.phase with
    | .trackPid =>
      if ok then { s.goto .detach with targetPidMap := s.targetPidMap.put s.gChild 1 } else s.killChild.exit
    | _ => s
  | .detached =>
    match s.phase with
    | .detach => { s.goto .waiting with child := s.child.resume }
    | _ => s
  | .childDied =>
    match s.phase with
    | .waiting => s.killChild.exit
    | _ => s.killChild
  | .sighup =>
    match s.phase with
    -- the polling loop reloads the policy; the plain `waitpid` is interrupted and `main` goes on
    | .waiting => if o.ringBuffer then s else s.exit
    | _ => s
  | .terminated childSurvives =>
    match s.phase with
    | .exited => s
    | _ => if childSurvives then s.exit else s.killChild.exit

/-- The loader has let go of the child, and the child runs. -/
def LeftRunning (s : StartUp) : Prop := (s.phase = .waiting ∨ s.phase = .exited) ∧ s.child = .running

def CgroupMapEmpty (s : StartUp) : Prop := s.cgroupMap.entries.keys = []

/-- A child left running is tracked, by programs that are attached and do not skip it for want
    of a cgroup. -/
def FailClosed (o : StartOptions) (s : StartUp) : Prop :=
  s.LeftRunning →
    (s.targetPidMap.lookup s.gChild).isSome ∧ s.attached = true ∧ ¬ (o.cgroupFilter = true ∧ s.CgroupMapEmpty)

/-- No step but these six leaves the child unenforced. -/
def KeepsClosed (o : StartOptions) (s : StartUp) : StartEvent → Prop
  | .mapCreated ok => s.phase = .createMain → ok = true ∨ s.child = .absent
  | .registryUpdated ok => s.phase = .registerMain ∨ s.phase = .registerLibc → ok = true ∨ s.child = .absent
  | .detached => s.phase = .detach → s.child = .absent ∨ ¬ (o.cgroupFilter = true ∧ s.CgroupMapEmpty)
  | .sighup => s.phase = .waiting → o.ringBuffer = true ∨ s.child = .absent
  | .terminated childSurvives => s.phase ≠ .exited → childSurvives = false ∨ s.child = .absent
  | _ => True

/-- What holds at each place of `main`. -/
def Inv (s : StartUp) : Prop :=
  match s.phase with
  | .populateCgroup | .fork => s.attached = true ∧ s.targetPidMap = .empty ∧ s.child = .absent
  | .detach => s.attached = true ∧ (s.targetPidMap.lookup s.gChild).isSome
  | .waiting => s.attached = true ∧ (s.targetPidMap.lookup s.gChild).isSome ∧ s.child ≠ .stopped
  | .exited => True
  | _ => s.attached = true ∧ s.targetPidMap = .empty

theorem inv_exit (s : StartUp) : s.exit.Inv := trivial

theorem inv_killChild {s : StartUp} (h : s.Inv) : s.killChild.Inv := by
  unfold Inv killChild at *
  dsimp only
  split <;> simp_all

theorem resume_ne_stopped (c : ChildStatus) : c.resume ≠ .stopped := by
  cases c <;> decide

theorem lookup_tracked (pid : U32) : ((BoundedMap.empty.put pid 1 : TargetPidMap).lookup pid).isSome := by
  rw [BoundedMap.lookup_put_self (.inr (by decide))]
  rfl

theorem step_inv (o : StartOptions) (s : StartUp) (e : StartEvent) (h : s.Inv) : (s.step o e).Inv := by
  cases e with
  | childDied =>
    rw [step]
    split
    · exact inv_exit _
    · exact inv_killChild h
  | terminated childSurvives =>
    rw [step]
    split
    · exact h
    · split <;> exact inv_exit _
  | pidTracked ok =>
    rw [step]
    split
    next hphase =>
      split
      · simp only [Inv, hphase] at h
        exact ⟨h.1, h.2 ▸ lookup_tracked s.gChild⟩
      · exact inv_exit _
    · exact h
  | detached =>
    rw [step]
    split
    next hphase => simp_all [Inv, goto, resume_ne_stopped]
    · exact h
  | _ =>
    -- the calls in front of the tracking: they keep the programs and an empty map, or exit
    simp only [step]
    repeat' split
    all_goals first | exact h | exact inv_exit _ | simp_all [Inv, goto, killChild]

theorem failClosed_of_phase {o : StartOptions} {s : StartUp} (hw : s.phase ≠ .waiting) (he : s.phase ≠ .exited) :
    s.FailClosed o := fun h => (h.1.elim hw he).elim

theorem failClosed_of_absent {o : StartOptions} {s : StartUp} (h : s.child = .absent) : s.FailClosed o :=
  fun hleft => absurd (h.symm.trans hleft.2) (by decide)

theorem failClosed_exit_iff {o : StartOptions} {s : StartUp} : s.exit.FailClosed o ↔ s.child = .absent := by
  cases hchild : s.child <;> simp [FailClosed, LeftRunning, exit, hchild, ChildStatus.resume]

/-- A call that exits when it fails, and then only. -/
theorem failClosed_ite_exit_iff {o : StartOptions} {s s' : StartUp} {c : Prop} [Decidable c] (h : s'.FailClosed o) :
    (if c then s' else s.exit).FailClosed o ↔ c ∨ s.child = .absent := by
  by_cases hc : c
  · rw [if_pos hc]
    exact iff_of_true h (Or.inl hc)
  · rw [if_neg hc, failClosed_exit_iff, or_iff_right hc]

/-- After a detach the programs see the child, unless they look for its cgroup in an empty map. -/
theorem failClosed_detach_iff {o : StartOptions} {s : StartUp} (h : s.Inv) (hphase : s.phase = .detach) :
    ({ s.goto .waiting with child := s.child.resume } : StartUp).FailClosed o ↔
      s.child = .absent ∨ ¬ (o.cgroupFilter = true ∧ s.CgroupMapEmpty) := by
  simp only [Inv, hphase] at h
  cases hchild : s.child <;> simp [FailClosed, LeftRunning, goto, hchild, ChildStatus.resume, h, CgroupMapEmpty]

/-- **The step condition.** Every other outcome of every call keeps the child enforced, killed
    or stopped. -/
theorem step_failClosed_iff (o : StartOptions) (s : StartUp) (e : StartEvent) (h : s.Inv) (hs : s.FailClosed o) :
    (s.step o e).FailClosed o ↔ s.KeepsClosed o e := by
  cases e with
  | mapCreated ok =>
    rw [step, KeepsClosed]
    split
    next hphase =>
      rw [failClosed_ite_exit_iff (failClosed_of_phase (by simp [goto]) (by simp [goto])), forall_prop_of_true hphase]
    next hphase => split <;> simp [hphase, failClosed_of_phase, goto]
    next hmain _ => exact iff_of_true hs fun hphase => (hmain hphase).elim
  | registryUpdated ok =>
    rw [step, KeepsClosed]
    split
    next hphase =>
      rw [failClosed_ite_exit_iff (failClosed_of_phase (by simp [goto]) (by simp [goto])),
        forall_prop_of_true (Or.inl hphase)]
    next hphase =>
      rw [failClosed_ite_exit_iff (failClosed_of_phase (by simp [goto]) (by simp [goto])),
        forall_prop_of_true (Or.inr hphase)]
    next hmain hlibc => exact iff_of_true hs fun hphase => (hphase.elim hmain hlibc).elim
  | detached =>
    rw [step, KeepsClosed]
    split
    next hphase => rw [failClosed_detach_iff h hphase, forall_prop_of_true hphase]
    next hphase => exact iff_of_true hs fun hdetach => (hphase hdetach).elim
  | sighup =>
    rw [step, KeepsClosed]
    split
    next hphase => rw [failClosed_ite_exit_iff hs, forall_prop_of_true hphase]
    next hphase => exact iff_of_true hs fun hwaiting => (hphase hwaiting).elim
  | terminated childSurvives =>
    rw [step, KeepsClosed]
    split
    next hphase => exact iff_of_true hs fun hlive => absurd hphase hlive
    next hphase =>
      rw [forall_prop_of_true hphase]
      split
      next hsurvives => simp [hsurvives, failClosed_exit_iff]
      next hsurvives => simp [hsurvives, failClosed_exit_iff, killChild]
  | childDied =>
    rw [step]
    apply iff_of_true _ trivial
    split
    · exact failClosed_exit_iff.mpr rfl
    · exact failClosed_of_absent rfl
  | forked pid =>
    simp only [step]
    apply iff_of_true _ trivial
    split
    next hphase =>
      simp only [Inv, hphase] at h
      split
      · exact failClosed_of_phase (by simp [goto]) (by simp [goto])
      · exact failClosed_exit_iff.mpr h.2.2
    · exact hs
  | _ =>
    -- these calls kill the child before they exit
    simp only [step, KeepsClosed, iff_true]
    repeat' split
    all_goals
      first
      | exact hs
      | exact failClosed_exit_iff.mpr rfl
      | exact failClosed_of_phase (by simp [goto, killChild]) (by simp [goto, killChild])

theorem inv_start : start.Inv := ⟨rfl, rfl, rfl⟩

/-- From its registration on, the main binary has a policy map. -/
def MainRegistered (s : StartUp) : Prop :=
  match s.phase with
  | .populateCgroup | .fork | .waitTrap | .waitLibc _ | .createMain | .registerMain | .exited => True
  | _ => moduleMain ∈ s.registry

theorem mainRegistered_of_mem {s : StartUp} (h : moduleMain ∈ s.registry) : s.MainRegistered := by
  unfold MainRegistered
  split <;> trivial

theorem MainRegistered.at {s : StartUp} (h : s.MainRegistered) {phase : StartPhase} : s.phase = phase →
    match phase with
    | .populateCgroup | .fork | .waitTrap | .waitLibc _ | .createMain | .registerMain | .exited => True
    | _ => moduleMain ∈ s.registry := by
  rintro rfl
  exact h

theorem step_mainRegistered (o : StartOptions) (s : StartUp) (e : StartEvent) (h : s.MainRegistered) :
    (s.step o e).MainRegistered := by
  cases e with
  | registryUpdated ok =>
    rw [step]
    split
    · -- the registration itself
      split
      · exact mainRegistered_of_mem List.mem_cons_self
      · trivial
    next hphase =>
      split
      · exact mainRegistered_of_mem (List.mem_cons_of_mem _ (h.at hphase))
      · trivial
    · exact h
  | mapCreated ok =>
    rw [step]
    split
    · split <;> trivial
    next hphase => split <;> exact mainRegistered_of_mem (h.at hphase)
    · exact h
  | mainLoaded =>
    rw [step]
    split
    next hphase =>
      split
      · trivial
      · split <;> exact mainRegistered_of_mem (h.at hphase)
    · exact h
  | library created registered =>
    rw [step]
    split
    next hphase =>
      split
      · exact mainRegistered_of_mem (List.mem_cons_of_mem _ (h.at hphase))
      · exact h
    · exact h
  | librariesDone =>
    rw [step]
    split
    next hphase => exact mainRegistered_of_mem (h.at hphase)
    · exact h
  | pidTracked ok =>
    rw [step]
    split
    next hphase =>
      split
      · exact mainRegistered_of_mem (h.at hphase)
      · trivial
    · exact h
  | detached =>
    rw [step]
    split
    next hphase => exact mainRegistered_of_mem (h.at hphase)
    · exact h
  | _ =>
    -- the calls before the registration, and the ends
    simp only [step]
    repeat' split
    all_goals first | exact h | trivial

/-- No child is let go before the policy of its binary is in the registry. -/
theorem waiting_mainRegistered (o : StartOptions) (es : List StartEvent)
    (h : (run (step o) start es).phase = .waiting) : moduleMain ∈ (run (step o) start es).registry := by
  have hstart : start.MainRegistered := trivial
  have hrun := run_inv (step_mainRegistered o) hstart es
  simpa only [MainRegistered, h] using hrun

end StartUp

/-! What the enforcer does with the maps of a start. -/

/-- The maps, where the start-up has filled them. -/
def StartUp.maps (s : StartUp) (m : BpfMaps) : BpfMaps :=
  { m with targetPid := s.targetPidMap.lookup, cgroup := s.cgroupMap.lookup }

/-- `--cgroup` with an empty map exempts every tracked process from every check. -/
theorem empty_cgroup_map_passes (c : BpfConfig) (m : BpfMaps) (s : StartUp) (hfilter : c.cgroupFilter = true)
    (hempty : s.CgroupMapEmpty) (t : Thread) (htracked : (s.targetPidMap.lookup t.tgid).isSome) (syscallNr : U32) :
    sentinelCheck c (s.maps m) t syscallNr = .pass := by
  obtain ⟨v, hv⟩ := Option.isSome_iff_exists.mp htracked
  have hkeys : s.cgroupMap.entries.keys = [] := hempty
  have hcgroup : s.cgroupMap.lookup t.cgroupId = none := by
    apply AList.lookup_eq_none.mpr
    rw [AList.mem_keys, hkeys]
    exact List.not_mem_nil
  simp [sentinelCheck, StartUp.maps, hv, hfilter, hcgroup]

end SentinelStack.Cc
