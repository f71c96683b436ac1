import SentinelStack.Lib.Run
import Mathlib.Data.List.Basic

/- Loading and unloading of the MEI module (`sentinel_mei_init` and
   `sentinel_mei_exit` in `sentinel_mei_hook.c`), over every outcome of its four
   registrations: the Generic Netlink family, the kretprobe and the kprobe on
   `mei_cldev_send`, and the optional kprobe on `mei_cldev_recv`.

   Main result: `mei_balanced_iff` — whenever the module is not loaded none of its
   registrations is left, exactly if in no attempt to load it the family was registered
   and the kretprobe was not. That failure returns at once, where the one after it goes
   to the label that undoes what was registered; `family_leaked` is one. -/
namespace SentinelStack.Smm
open SentinelStack.Lib

/-! The registrations. -/

inductive MeiRegistration where
  | genlFamily
  | kretprobeSend
  | kprobeSend
  | kprobeRecv
  deriving DecidableEq, Repr

/-- What a registration function of the kernel returns: 0, or a negative error. -/
abbrev KernelReturn := { ret : Int // ret ≤ 0 }

def enoent : Int := 2
def enodev : Int := 19

/-- The outcome of the registrations of one attempt to load the module. `recvAddr` is whether
    a failed registration of the recv kprobe leaves an address in `kp_mei_recv.addr`. -/
structure InitReturns where
  genlFamily : KernelReturn
  kretprobeSend : KernelReturn
  kprobeSend : KernelReturn
  kprobeRecv : KernelReturn
  recvAddr : Bool
  deriving DecidableEq

/-- What is registered, each with the module image it belongs to. -/
abbrev Registered := List (Nat × MeiRegistration)

/-- A loaded module, with `kp_mei_recv.addr` as far as it is tested: the kernel fills it in
    where it registers the probe. -/
structure LoadedModule where
  image : Nat
  recvAddr : Bool
  deriving DecidableEq, Repr

/-- `sentinel_mei_init`: what it returns, what is registered, and whether `kp_mei_recv.addr` is set. -/
def sentinelMeiInit (image : Nat) (r : InitReturns) (registered : Registered) : Int × Registered × Bool :=
  if r.genlFamily.val ≠ 0 then (r.genlFamily, registered, false)
  else
    let registered := (image, .genlFamily) :: registered
    if r.kretprobeSend.val < 0 then
      (if r.kretprobeSend.val = -enoent then -enodev else r.kretprobeSend, registered, false)
    else
      let registered := (image, .kretprobeSend) :: registered
      if r.kprobeSend.val < 0 then
        -- unregister_kretprobe:
        (r.kprobeSend, (registered.erase (image, .kretprobeSend)).erase (image, .genlFamily), false)
      else
        let registered := (image, .kprobeSend) :: registered
        if r.kprobeRecv.val < 0 then (0, registered, r.recvAddr)
        else (0, (image, .kprobeRecv) :: registered, true)

def sentinelMeiExit (m : LoadedModule) (registered : Registered) : Registered :=
  let registered := if m.recvAddr then registered.erase (m.image, .kprobeRecv) else registered
  ((registered.erase (m.image, .kprobeSend)).erase (m.image, .kretprobeSend)).erase (m.image, .genlFamily)

/-! Loads and unloads. -/

inductive MeiLoadEvent where
  | load (r : InitReturns)
  | unload
  deriving DecidableEq

/-- The kernel's side: the attempts to load so far, what is registered and the loaded module. -/
structure MeiKernel where
  attempts : Nat
  registered : Registered
  loaded : Option LoadedModule
  deriving DecidableEq, Repr

def meiKernelInit : MeiKernel := ⟨0, [], none⟩

/-- An attempt while the module is loaded is refused before `sentinel_mei_init` is called, and
    `sentinel_mei_exit` is called for a loaded module only. -/
def meiLoadStep (s : MeiKernel) : MeiLoadEvent → MeiKernel
  | .load r =>
    if s.loaded.isSome then s
    else
      let (ret, registered, recvAddr) := sentinelMeiInit s.attempts r s.registered
      ⟨s.attempts + 1, registered, if ret < 0 then none else some ⟨s.attempts, recvAddr⟩⟩
  | .unload =>
    match s.loaded with
    | none => s
    | some m => { s with registered := sentinelMeiExit m s.registered, loaded := none }

/-- The attempt does not fail between the family and the kretprobe. -/
def KretprobeAfterFamily (r : InitReturns) : Prop := r.genlFamily.val = 0 → r.kretprobeSend.val = 0

/-- A load that is attempted does not. -/
def FamilyUndone (s : MeiKernel) : MeiLoadEvent → Prop
  | .load r => s.loaded = none → KretprobeAfterFamily r
  | .unload => True

/-- No registration is left without the module. -/
def Balanced (s : MeiKernel) : Prop := s.loaded = none → s.registered = []

/-- What is registered is what the loaded module unregisters. -/
def Accounted (s : MeiKernel) : Prop :=
  match s.loaded with
  | none => s.registered = []
  | some m => sentinelMeiExit m s.registered = []

theorem balanced_of_accounted (s : MeiKernel) (h : Accounted s) : Balanced s := by
  intro hnone
  rw [Accounted, hnone] at h
  exact h

/-- The three ways `sentinel_mei_init` ends, from nothing registered: a failure that leaves
    nothing, a failure that leaves the family, and a load that the exit undoes. -/
theorem sentinelMeiInit_cases (image : Nat) (r : InitReturns) :
    (∃ ret, ret < 0 ∧ KretprobeAfterFamily r ∧ sentinelMeiInit image r [] = (ret, [], false)) ∨
    (∃ ret, ret < 0 ∧ ¬ KretprobeAfterFamily r ∧
      sentinelMeiInit image r [] = (ret, [(image, .genlFamily)], false)) ∨
    (∃ registered recvAddr, KretprobeAfterFamily r ∧ sentinelMeiInit image r [] = (0, registered, recvAddr) ∧
      sentinelMeiExit ⟨image, recvAddr⟩ registered = []) := by
  have hfamily := r.genlFamily.property
  have hkret := r.kretprobeSend.property
  unfold sentinelMeiInit
  split
  next hne => exact Or.inl ⟨_, by omega, fun h => absurd h hne, rfl⟩
  next hok =>
  have hzero : r.genlFamily.val = 0 := not_not.mp hok
  dsimp only
  split
  next hlt =>
    refine Or.inr (Or.inl ⟨_, ?_, fun h => ?_, rfl⟩)
    · split
      · decide
      · exact hlt
    · have := h hzero
      omega
  next hge =>
  have hafter : KretprobeAfterFamily r := fun _ => by omega
  split
  next hlt => exact Or.inl ⟨_, hlt, hafter, by simp⟩
  next =>
    split
    · refine Or.inr (Or.inr ⟨_, _, hafter, rfl, ?_⟩)
      cases r.recvAddr <;> simp [sentinelMeiExit]
    · exact Or.inr (Or.inr ⟨_, _, hafter, rfl, by simp [sentinelMeiExit]⟩)

theorem accounted_none {s : MeiKernel} (hnone : s.loaded = none) : Accounted s ↔ s.registered = [] := by
  rw [Accounted, hnone]

theorem accounted_some {s : MeiKernel} {m : LoadedModule} (hsome : s.loaded = some m) :
    Accounted s ↔ sentinelMeiExit m s.registered = [] := by
  rw [Accounted, hsome]

theorem meiLoadStep_load_loaded {s : MeiKernel} {m : LoadedModule} (hsome : s.loaded = some m) (r : InitReturns) :
    meiLoadStep s (.load r) = s := if_pos (by rw [hsome]; rfl)

theorem meiLoadStep_load {s : MeiKernel} (hnone : s.loaded = none) (r : InitReturns) :
    meiLoadStep s (.load r) =
      ⟨s.attempts + 1, (sentinelMeiInit s.attempts r s.registered).2.1,
        if (sentinelMeiInit s.attempts r s.registered).1 < 0 then none
        else some ⟨s.attempts, (sentinelMeiInit s.attempts r s.registered).2.2⟩⟩ := if_neg (by rw [hnone]; decide)

theorem meiLoadStep_unload_accounted {s : MeiKernel} (h : Accounted s) : Accounted (meiLoadStep s .unload) := by
  cases hloaded : s.loaded with
  | none =>
    have hsame : meiLoadStep s .unload = s := by simp only [meiLoadStep, hloaded]
    rw [hsame]
    exact h
  | some m =>
    have hstep : meiLoadStep s .unload = { s with registered := sentinelMeiExit m s.registered, loaded := none } := by
      simp only [meiLoadStep, hloaded]
    rw [hstep, accounted_none rfl]
    exact (accounted_some hloaded).mp h

/-- A load keeps the account exactly if it does not leave the family behind. -/
theorem meiLoadStep_load_accounted {s : MeiKernel} (h : Accounted s) (r : InitReturns) :
    (FamilyUndone s (.load r) → Accounted (meiLoadStep s (.load r))) ∧
      (Balanced (meiLoadStep s (.load r)) → FamilyUndone s (.load r)) := by
  cases hloaded : s.loaded with
  | some m =>
    rw [meiLoadStep_load_loaded hloaded]
    exact ⟨fun _ => h, fun _ hnone => nomatch hloaded.symm.trans hnone⟩
  | none =>
    rw [meiLoadStep_load hloaded, (accounted_none hloaded).mp h]
    obtain ⟨ret, hret, hafter, heq⟩ | ⟨ret, hret, hleak, heq⟩ | ⟨registered, recvAddr, hafter, heq, hexit⟩ :=
      sentinelMeiInit_cases s.attempts r
    · rw [heq, if_pos hret]
      exact ⟨fun _ => rfl, fun _ _ => hafter⟩
    · rw [heq, if_pos hret]
      exact ⟨fun hundone => absurd (hundone hloaded) hleak, fun hbalanced => nomatch hbalanced rfl⟩
    · rw [heq]
      exact ⟨fun _ => hexit, fun _ _ => hafter⟩

/-- **Loading and unloading are balanced.** Over every sequence of attempts to load the module and of
    unloads, with every outcome of the registrations: whenever the module is not loaded none
    of its registrations is left, exactly if no attempt registered the family and then
    failed to register the kretprobe. -/
theorem mei_balanced_iff (events : List MeiLoadEvent) :
    (∀ pre, pre <+: events → Balanced (run meiLoadStep meiKernelInit pre)) ↔
      Along meiLoadStep FamilyUndone meiKernelInit events := by
  have h0 : Accounted meiKernelInit := rfl
  apply Along.iff_always balanced_of_accounted _ _ h0
  · intro s e h hundone
    cases e with
    | load r => exact (meiLoadStep_load_accounted h r).1 hundone
    | unload => exact meiLoadStep_unload_accounted h
  · intro s e h hbalanced
    cases e with
    | load r => exact (meiLoadStep_load_accounted h r).2 hbalanced
    | unload => trivial

/-- `mei_cldev_send` is not found: the load fails with `-ENODEV`. -/
def symbolMissing : InitReturns :=
  ⟨⟨0, Int.le_refl 0⟩, ⟨-enoent, by decide⟩, ⟨0, Int.le_refl 0⟩, ⟨0, Int.le_refl 0⟩, false⟩

/-- Without the `mei_me` driver the module is not loaded and its family stays registered. -/
theorem family_leaked :
    (sentinelMeiInit 0 symbolMissing []).1 = -enodev ∧
      (run meiLoadStep meiKernelInit [.load symbolMissing]).loaded = none ∧
      (run meiLoadStep meiKernelInit [.load symbolMissing]).registered = [(0, .genlFamily)] ∧
      ¬ Balanced (run meiLoadStep meiKernelInit [.load symbolMissing]) := by
  refine ⟨by decide, by decide, by decide, fun hbalanced => ?_⟩
  exact absurd (hbalanced (by decide)) (by decide)

end SentinelStack.Smm
