import SentinelStack.Vmi.GuardPoll

/- The guard through its life: `npt_guard_arm`, `npt_guard_disarm`, dynamic
   registrations and polls, in any order, with any memory at each call.

   `npt_guard_arm` empties the table before it knows whether it can be filled
   again, and leaves `npt_armed` alone where it cannot. `registered` logs what has
   been registered since the guard was last disarmed. Main result:
   `armed_sound_iff` — while the guard is armed the syscall table is guarded with a
   valid baseline and every registered region is there, throughout exactly the
   sequences in which each arming finds a syscall table that translates and can be
   read, and nothing registered but that table and the regions of the environment;
   or else an unarmed session. -/
namespace SentinelStack.Vmi
open SentinelStack.Lib

/-- What a registration asks for, as `add_guard_region` keeps it. -/
structure Registration where
  name : CStr
  gpa : U64
  size : U64
  critical : Bool
  deriving DecidableEq, Repr

def GuardRegion.registration (r : GuardRegion) : Registration := ⟨r.name, r.gpa, r.size, r.critical⟩

def Guard.registrations (g : Guard) : List Registration := g.state.guardRegions.regions.map (·.registration)

/-- The session, the guard, and what was registered with success since the last `npt_guard_disarm`. -/
structure Lifecycle where
  session : VmiSession
  guard : Guard
  registered : List Registration

inductive LifecycleEvent where
  | arm (host : Host) (env : CStr → Option U64)
  | disarm
  | protectDynamic (host : Host) (gpa size : U64) (critical : Bool) (name : CStr)
  | handleEvents (host : Host) (now : U64) (allowPatch : Option CStr) (auth : AuthState)

def nptGuardDisarm (s : VmiSession) (g : Guard) : VmiSession × Guard :=
  if ¬ s.nptArmed then (s, g)
  else ({ s with nptArmed := false }, ⟨{ g.state.cleared with snapshotTaken := false }, 0⟩)

/-- The state after a call. One that does not return is followed by no other. -/
def Lifecycle.step (w : Lifecycle) : LifecycleEvent → Lifecycle
  | .arm host env =>
    match nptGuardArm host env w.session w.guard.state with
    | none => w
    | some (.unresolved s g) => { w with session := s, guard := g }
    | some (.failed s g) => { w with session := s, guard := g }
    | some (.armed s g) => ⟨s, g, w.registered ++ g.registrations⟩
  | .disarm => ⟨(nptGuardDisarm w.session w.guard).1, (nptGuardDisarm w.session w.guard).2, []⟩
  | .protectDynamic host gpa size critical name =>
    match nptGuardProtectDynamic host w.session w.guard.state gpa size critical name with
    | none => w
    | some (ok, gs) =>
      { w with
        guard := { w.guard with state := gs }
        registered := if ok then w.registered ++ [⟨strncpyz regionNameMax name, gpa, size, critical⟩] else w.registered }
  | .handleEvents host now allowPatch auth =>
    { w with guard := w.guard.step w.session (.poll host now allowPatch auth) }

/-- The syscall table is guarded, with a valid baseline. -/
def GuardsTable (s : VmiSession) (g : Guard) : Prop :=
  ∃ r ∈ g.state.guardRegions.regions,
    r.registration = (tableRegion s.syscallTableGpa).registration ∧ r.baselineValid = true

/-- While the guard is armed, the syscall table is guarded and nothing registered is missing. -/
def Lifecycle.Sound (w : Lifecycle) : Prop :=
  w.session.nptArmed = true → GuardsTable w.session w.guard ∧ ∀ k ∈ w.registered, k ∈ w.guard.registrations

/-! What an arming finds. -/

/-- Where the page tables of the guest lead from the address of the syscall table, if they do. -/
def tableTranslates (host : Host) (s : VmiSession) : Option U64 :=
  if s.kernelPgd = 0 then none else vmiGvaToGpa host s s.kernelPgd (sysCallTableBase66 + s.kaslrOffset)

/-- The region the environment asks for, where its address translates. -/
def EnvRegion.asked (host : Host) (s : VmiSession) (env : CStr → Option U64) (e : EnvRegion) : Option Registration :=
  (env e.gvaEnv).bind fun gva =>
    (vmiGvaToGpa host s s.kernelPgd gva).map fun gpa =>
      ⟨e.name, gpa, ((env e.sizeEnv).filter fun size => size > 0).getD e.defaultSize, true⟩

/-- The syscall table at `gpa`, and what the environment asks for. -/
def staticRegions (host : Host) (s : VmiSession) (env : CStr → Option U64) (gpa : U64) : List Registration :=
  ⟨ascii "sys_call_table", gpa, BitVec.ofNat 64 sysCallTableSize, true⟩ ::
    optionalRegions.filterMap (EnvRegion.asked host s env)

/-- The loop over the region's pages ends: the region does not end in the last page. -/
def Registration.BelowLastPage (k : Registration) : Prop := (k.gpa + k.size).toNat ≤ 2 ^ 64 - 2 ^ pageShift

/-- An arming finds a syscall table it can read, and nothing registered but that and what the
    environment asks for, unless it never returns from a page loop; or else an unarmed session. -/
def Rearms (w : Lifecycle) : LifecycleEvent → Prop
  | .arm host env =>
    match tableTranslates host w.session with
    | none => w.session.nptArmed = false
    | some gpa =>
      if (vmiReadPhysical host w.session gpa sysCallTableSize).ok then
        (∀ k ∈ staticRegions host w.session env gpa, k.BelowLastPage) →
          ∀ k ∈ w.registered, k ∈ staticRegions host w.session env gpa
      else w.session.nptArmed = false
  | _ => True

/-! Arming. -/

theorem baselineRegions_ok (host : Host) (s : VmiSession) (gs : GuardState) {regions : List GuardRegion}
    (h : ∀ r ∈ regions, r.name ≠ ascii "sys_call_table") : (baselineRegions host s gs regions).1 = true := by
  induction regions generalizing gs with
  | nil => rfl
  | cons r rest ih =>
    have hrest : ∀ gs, (baselineRegions host s gs rest).1 = true := fun gs =>
      ih gs fun r' hr' => h r' (List.mem_cons_of_mem r hr')
    rw [baselineRegions]
    split
    · rw [if_neg (h r List.mem_cons_self)]
      exact hrest _
    · exact hrest _

/-- Where the baselines fail, it is that of the syscall table, and none was taken. -/
theorem baselineRegions_failed {host : Host} {s : VmiSession} {gs : GuardState} {first : GuardRegion}
    {rest : List GuardRegion} (hname : first.name = ascii "sys_call_table")
    (hrest : ∀ r ∈ rest, r.name ≠ ascii "sys_call_table")
    (hfailed : (baselineRegions host s gs (first :: rest)).1 = false) :
    (baselineRegions host s gs (first :: rest)).2.1 = first :: rest := by
  rw [baselineRegions] at hfailed ⊢
  split at hfailed
  · rw [if_pos hname]
  · rw [baselineRegions_ok host s _ hrest] at hfailed
    cases hfailed

theorem regionPages_isSome_iff (r : GuardRegion) : (regionPages r).isSome ↔ r.registration.BelowLastPage := by
  have halign : (alignDown pageShift r.gpa).toNat % 2 ^ pageShift = 0 := by rw [toNat_alignDown, Nat.mul_mod_left]
  have hsome : (regionPages r).isSome ↔ (stepLoop (BitVec.ofNat 64 (2 ^ pageShift)) (2 ^ (64 - pageShift))
      (alignDown pageShift r.gpa) (r.gpa + r.size)).2 = true := by
    unfold regionPages
    rw [show vmiPageSize = 2 ^ pageShift from rfl]
    split
    next hloop => exact iff_of_true rfl (congrArg Prod.snd hloop)
    next hloop =>
      refine iff_of_false Bool.false_ne_true ?_
      rw [hloop]
      exact Bool.false_ne_true
  rw [hsome]
  constructor
  · intro hfin
    by_contra hlast
    have hend : 2 ^ 64 - 2 ^ pageShift < (r.gpa + r.size).toNat := Nat.lt_of_not_le hlast
    rw [stepLoop_unfinished (by decide) _ halign hend] at hfin
    cases hfin
  · intro hbelow
    refine (stepLoop_count _ halign hbelow ?_).1
    have hend : (r.gpa + r.size).toNat ≤ 2 ^ 64 - 2 ^ pageShift := hbelow
    simp only [pageShift] at hend ⊢
    omega

/-- The environment's region enters a table that has room, if its address translates. -/
theorem addEnvGuardRegion_registrations (host : Host) (s : VmiSession) (env : CStr → Option U64) {t : GuardTable}
    {e : EnvRegion} (hname : strncpyz regionNameMax e.name = e.name) (hsize : e.defaultSize ≠ 0)
    (hroom : t.regions.length < maxGuardRegions) :
    (addEnvGuardRegion host s env t e).regions.map GuardRegion.registration =
      t.regions.map GuardRegion.registration ++ (e.asked host s env).toList := by
  unfold addEnvGuardRegion EnvRegion.asked
  cases env e.gvaEnv with
  | none => simp
  | some gva =>
    dsimp only [Option.bind_some]
    cases vmiGvaToGpa host s s.kernelPgd gva with
    | none => simp
    | some gpa =>
      have hpos : ((env e.sizeEnv).filter fun size => size > 0).getD e.defaultSize ≠ 0 := by
        cases hsize' : (env e.sizeEnv).filter fun size => size > 0 with
        | none => exact hsize
        | some size =>
          have := (Option.filter_eq_some_iff.mp hsize').2
          simp only [gt_iff_lt, decide_eq_true_eq] at this
          intro hzero
          rw [Option.getD_some] at hzero
          rw [hzero] at this
          exact absurd this (by decide)
      dsimp only
      rw [addGuardRegion, dif_neg (by rintro (h | h); exacts [hpos h, absurd h (by omega)])]
      simp [GuardTable.push, newRegion, GuardRegion.registration, hname]

theorem optionalRegions_registrations (host : Host) (s : VmiSession) (env : CStr → Option U64) {es : List EnvRegion}
    (hes : ∀ e ∈ es, strncpyz regionNameMax e.name = e.name ∧ e.defaultSize ≠ 0) (t : GuardTable)
    (hroom : t.regions.length + es.length ≤ maxGuardRegions) :
    (es.foldl (addEnvGuardRegion host s env) t).regions.map GuardRegion.registration =
      t.regions.map GuardRegion.registration ++ es.filterMap (EnvRegion.asked host s env) := by
  induction es generalizing t with
  | nil => simp
  | cons e es ih =>
    rw [List.length_cons] at hroom
    obtain ⟨hname, hsize⟩ := hes e List.mem_cons_self
    have hfree : t.regions.length < maxGuardRegions := by omega
    have hadd := addEnvGuardRegion_registrations host s env hname hsize hfree
    have hlen : (addEnvGuardRegion host s env t e).regions.length ≤ t.regions.length + 1 := by
      rw [← List.length_map (f := GuardRegion.registration), hadd, List.length_append, List.length_map]
      cases e.asked host s env <;> simp
    rw [List.foldl_cons, ih (fun e' he' => hes e' (List.mem_cons_of_mem e he')) _ (by omega), hadd,
      List.append_assoc, List.filterMap_cons]
    cases e.asked host s env <;> simp

/-- Taking the baselines changes no registration. -/
theorem baselineRegions_registrations (host : Host) (s : VmiSession) (gs : GuardState) (regions : List GuardRegion) :
    (baselineRegions host s gs regions).2.1.map GuardRegion.registration = regions.map GuardRegion.registration := by
  induction regions generalizing gs with
  | nil => rfl
  | cons r rest ih =>
    rw [baselineRegions]
    split
    · split
      · rfl
      · rw [List.map_cons, ih, List.map_cons]
    next r' gs' hsnap =>
      obtain ⟨hash, hr'⟩ := snapshotGuardRegion_some (congrArg Prod.fst hsnap)
      rw [List.map_cons, ih, List.map_cons, hr']
      rfl

/-- Whether the baselines succeed is whether the syscall table can be read. -/
theorem baselineRegions_fst {host : Host} {s : VmiSession} {gs : GuardState} {first : GuardRegion}
    {rest : List GuardRegion} (hname : first.name = ascii "sys_call_table")
    (hrest : ∀ r ∈ rest, r.name ≠ ascii "sys_call_table") :
    (baselineRegions host s gs (first :: rest)).1 = (vmiReadPhysical host s s.syscallTableGpa sysCallTableSize).ok := by
  rw [baselineRegions, snapshotGuardRegion, if_pos hname]
  unfold snapshotSyscallTable
  dsimp only
  cases (vmiReadPhysical host s s.syscallTableGpa sysCallTableSize).ok with
  | false => simp [hname]
  | true =>
    simp only [if_true]
    exact baselineRegions_ok host s _ hrest

/-- Reads go by the memory slots and the process of the session. -/
theorem readMemslotsLoop_resolved (host : Host) (s : VmiSession) (gpa addr : U64) (size fuel : Nat) (buf : List U8) :
    readMemslotsLoop host (resolvedSession s gpa) addr size fuel buf = readMemslotsLoop host s addr size fuel buf := by
  induction fuel generalizing buf with
  | zero => rfl
  | succ fuel ih =>
    rw [readMemslotsLoop, readMemslotsLoop]
    simp only [ih]
    rfl

theorem vmiReadPhysical_resolved (host : Host) (s : VmiSession) (gpa addr : U64) (size : Nat) :
    vmiReadPhysical host (resolvedSession s gpa) addr size = vmiReadPhysical host s addr size := by
  unfold vmiReadPhysical readViaMemslots
  simp only [readMemslotsLoop_resolved]
  rfl

theorem staticRegions_resolved (host : Host) (s : VmiSession) (env : CStr → Option U64) (gpa : U64) :
    staticRegions host (resolvedSession s gpa) env gpa = staticRegions host s env gpa := rfl

theorem nptGuardArm_unresolved {host : Host} {s : VmiSession} (h : tableTranslates host s = none)
    (env : CStr → Option U64) (gs : GuardState) : ∃ s' g, nptGuardArm host env s gs = some (.unresolved s' g) := by
  unfold nptGuardArm
  dsimp only
  by_cases hpgd : s.kernelPgd = 0
  · rw [if_pos hpgd]
    exact ⟨_, _, rfl⟩
  · rw [tableTranslates, if_neg hpgd] at h
    have hnone : vmiGvaToGpa host { s with syscallTableGva := sysCallTableBase66 + s.kaslrOffset } s.kernelPgd
        (sysCallTableBase66 + s.kaslrOffset) = none := h
    rw [if_neg hpgd, hnone]
    exact ⟨_, _, rfl⟩

theorem optionalRegions_ok : ∀ e ∈ optionalRegions, strncpyz regionNameMax e.name = e.name ∧ e.defaultSize ≠ 0 := by
  decide +kernel

/-- How an arming ends once the baselines `b` were taken. -/
theorem arm_outcome {b : Bool × List GuardRegion × GuardState} {s₁ s₂ : VmiSession} {f : List (List U64) → Guard}
    {g₂ : Guard} (hf : ∀ pages, (f pages).registrations = b.2.1.map GuardRegion.registration) {result : Option ArmResult}
    (hresult : result = if b.1 then (b.2.1.mapM regionPages).map fun pages => .armed s₁ (f pages)
      else some (.failed s₂ g₂)) :
    (b.1 = false ∧ ∃ s' g, result = some (.failed s' g)) ∨
      b.1 = true ∧
        ((¬ (∀ k ∈ b.2.1.map GuardRegion.registration, k.BelowLastPage) ∧ result = none) ∨
          (∀ k ∈ b.2.1.map GuardRegion.registration, k.BelowLastPage) ∧
            ∃ s' g, result = some (.armed s' g) ∧ g.registrations = b.2.1.map GuardRegion.registration) := by
  have hends : (b.2.1.mapM regionPages).isSome ↔
      ∀ k ∈ b.2.1.map GuardRegion.registration, k.BelowLastPage := by
    rw [mapM_isSome_iff, List.forall_mem_map]
    exact forall₂_congr fun r _ => regionPages_isSome_iff r
  rw [← hends]
  cases hok : b.1 with
  | false =>
    rw [hok] at hresult
    exact Or.inl ⟨rfl, s₂, g₂, hresult⟩
  | true =>
    rw [hok, if_pos rfl] at hresult
    cases hpages : b.2.1.mapM regionPages with
    | none =>
      rw [hpages] at hresult
      exact Or.inr ⟨rfl, Or.inl ⟨by simp, hresult⟩⟩
    | some pages =>
      rw [hpages] at hresult
      exact Or.inr ⟨rfl, Or.inr ⟨rfl, s₁, f pages, hresult, hf pages⟩⟩

/-- **What arming does with a table that translates**: it fails where the table cannot be read;
    where it can, the guard is armed over the static regions, or a page loop does not end. -/
theorem nptGuardArm_resolved {host : Host} {s : VmiSession} {gpa : U64} (h : tableTranslates host s = some gpa)
    (env : CStr → Option U64) (gs : GuardState) :
    ((vmiReadPhysical host s gpa sysCallTableSize).ok = false ∧
        ∃ s' g, nptGuardArm host env s gs = some (.failed s' g)) ∨
      (vmiReadPhysical host s gpa sysCallTableSize).ok = true ∧
        ((¬ (∀ k ∈ staticRegions host s env gpa, k.BelowLastPage) ∧ nptGuardArm host env s gs = none) ∨
          (∀ k ∈ staticRegions host s env gpa, k.BelowLastPage) ∧
            ∃ s' g, nptGuardArm host env s gs = some (.armed s' g) ∧
              g.registrations = staticRegions host s env gpa) := by
  obtain ⟨hpgd, htranslates⟩ : s.kernelPgd ≠ 0 ∧
      vmiGvaToGpa host { s with syscallTableGva := sysCallTableBase66 + s.kaslrOffset } s.kernelPgd
        (sysCallTableBase66 + s.kaslrOffset) = some gpa := by
    unfold tableTranslates at h
    split at h
    · cases h
    next hpgd => exact ⟨hpgd, h⟩
  have hroom : [tableRegion gpa].length ≤ maxGuardRegions := Nat.le_of_ble_eq_true rfl
  have hadd : addGuardRegion (⟨[], Nat.zero_le _⟩ : GuardTable) (ascii "sys_call_table") gpa
      (BitVec.ofNat 64 sysCallTableSize) true = some ⟨[tableRegion gpa], hroom⟩ := by
    rw [addGuardRegion, dif_neg (by decide)]
    rfl
  -- the table that is built: its names, its registrations and its baselines
  obtain ⟨extra, hregions, hnames⟩ := optionalRegions_regions host (resolvedSession s gpa) env
    ⟨[tableRegion gpa], hroom⟩ optionalRegions_names
  have hread : (baselineRegions host (resolvedSession s gpa) gs.cleared (optionalRegions.foldl
      (addEnvGuardRegion host (resolvedSession s gpa) env) ⟨[tableRegion gpa], hroom⟩).regions).1 =
        (vmiReadPhysical host s gpa sysCallTableSize).ok := by
    rw [hregions, ← vmiReadPhysical_resolved]
    exact baselineRegions_fst rfl hnames
  have hkept : (baselineRegions host (resolvedSession s gpa) gs.cleared (optionalRegions.foldl
      (addEnvGuardRegion host (resolvedSession s gpa) env) ⟨[tableRegion gpa], hroom⟩).regions).2.1.map
        GuardRegion.registration = staticRegions host s env gpa := by
    rw [baselineRegions_registrations, optionalRegions_registrations host _ env optionalRegions_ok _
      (Nat.le_of_ble_eq_true rfl), ← staticRegions_resolved]
    rfl
  rw [← hread, ← hkept]
  apply arm_outcome
  case hresult =>
    unfold nptGuardArm
    dsimp only
    rw [if_neg hpgd, htranslates]
    dsimp only
    rw [hadd]
    rfl
  case hf => exact fun pages => rfl

/-- An arming without success leaves no valid baseline of the syscall table. -/
theorem arm_without_success {host : Host} {env : CStr → Option U64} {s₀ s : VmiSession} {gs : GuardState} {g : Guard}
    (h : nptGuardArm host env s₀ gs = some (.unresolved s g) ∨ nptGuardArm host env s₀ gs = some (.failed s g)) :
    s.nptArmed = s₀.nptArmed ∧ ¬ GuardsTable s g := by
  have hempty : ∀ g : Guard, g.state = gs.cleared → ¬ GuardsTable s g := by
    rintro g hg ⟨r, hr, -⟩
    rw [hg] at hr
    cases hr
  rcases h with h | h
  · rcases nptGuardArm_cases h with ⟨_, _, heq, harmed, hg⟩ | ⟨_, _, _, ⟨_, _, heq, _⟩ | ⟨_, _, heq, _⟩⟩
    · obtain ⟨rfl, rfl⟩ := ArmResult.unresolved.inj heq
      exact ⟨harmed, hempty _ hg⟩
    · cases heq
    · cases heq
  · -- the regions are in the table, the syscall table's without a baseline
    rcases nptGuardArm_cases h with ⟨_, _, heq, _⟩ | ⟨gpa, extra, hnames, ⟨hfailed, _, heq, hregions⟩ | ⟨_, _, heq, _⟩⟩
    · cases heq
    · obtain ⟨rfl, rfl⟩ := ArmResult.failed.inj heq
      refine ⟨rfl, ?_⟩
      rintro ⟨r, hr, hregistration, hvalid⟩
      rw [hregions, baselineRegions_failed rfl hnames hfailed] at hr
      rcases List.mem_cons.mp hr with rfl | hr
      · cases hvalid
      · exact hnames r hr (congrArg Registration.name hregistration)
    · cases heq

theorem guardsTable_of_first {s : VmiSession} {g : Guard} {r : GuardRegion} {rest : List GuardRegion}
    (h : g.state.guardRegions.regions = r :: rest)
    (hregistration : r.registration = (tableRegion s.syscallTableGpa).registration) (hvalid : r.baselineValid = true) :
    GuardsTable s g := ⟨r, by rw [h]; exact List.mem_cons_self, hregistration, hvalid⟩

/-- An arming with success has the baseline of the syscall table. -/
theorem arm_with_success {host : Host} {env : CStr → Option U64} {s₀ s : VmiSession} {gs : GuardState} {g : Guard}
    (h : nptGuardArm host env s₀ gs = some (.armed s g)) : s.nptArmed = true ∧ GuardsTable s g := by
  rcases nptGuardArm_cases h with ⟨_, _, heq, _⟩ | ⟨gpa, extra, hnames, ⟨_, _, heq, _⟩ | ⟨hok, _, heq, hregions, _⟩⟩
  · cases heq
  · cases heq
  · obtain ⟨rfl, rfl⟩ := ArmResult.armed.inj heq
    obtain ⟨rest', -, -, hlist⟩ := baselineRegions_table rfl hnames hok
    exact ⟨rfl, guardsTable_of_first (hregions.trans hlist) rfl rfl⟩

/-! The other calls. -/

/-- A registration puts a region behind the others; if it succeeds, the one it was asked for. -/
theorem protectDynamic_registrations {host : Host} {s : VmiSession} {gs gs' : GuardState} {gpa size : U64}
    {critical : Bool} {name : CStr} {ok : Bool}
    (h : nptGuardProtectDynamic host s gs gpa size critical name = some (ok, gs')) :
    ∃ new, gs'.guardRegions.regions = gs.guardRegions.regions ++ new ∧
      (ok = true → ⟨strncpyz regionNameMax name, gpa, size, critical⟩ ∈ new.map GuardRegion.registration) := by
  rcases protectDynamic_cases h with ⟨-, rfl, rfl⟩ | ⟨henters, ⟨-, rfl, rfl⟩ | ⟨baselined, pages, hsnap, rfl, -, rfl⟩⟩
  · exact ⟨[], (List.append_nil _).symm, fun hok => by cases hok⟩
  · -- a failed snapshot leaves the region in the table
    exact ⟨_, rfl, fun hok => by cases hok⟩
  · have hregistration : baselined.registration = ⟨strncpyz regionNameMax name, gpa, size, critical⟩ := by
      obtain ⟨hash, hbaselined⟩ := snapshotGuardRegion_some hsnap
      rw [hbaselined]
      rfl
    exact ⟨[baselined], rfl, fun _ => by simp [hregistration]⟩

/-- What only adds regions, or changes what was last reported, keeps an armed guard sound. -/
theorem sound_of_grown {w : Lifecycle} (h : w.Sound) {g : Guard} {f : GuardRegion → GuardRegion} {new : List GuardRegion}
    (hkeeps : ∀ r, (f r).registration = r.registration ∧ (f r).baselineValid = r.baselineValid)
    (hregions : g.state.guardRegions.regions = w.guard.state.guardRegions.regions.map f ++ new)
    {registered : List Registration}
    (hregistered : ∀ k ∈ registered, k ∈ w.registered ∨ k ∈ new.map GuardRegion.registration) :
    Lifecycle.Sound ⟨w.session, g, registered⟩ := by
  intro harmed
  obtain ⟨⟨r, hr, hregistration, hvalid⟩, hall⟩ := h harmed
  have hgrown : g.registrations = w.guard.registrations ++ new.map GuardRegion.registration := by
    have hsame : GuardRegion.registration ∘ f = GuardRegion.registration := by
      funext r
      exact (hkeeps r).1
    rw [Guard.registrations, hregions, List.map_append, List.map_map, hsame, Guard.registrations]
  refine ⟨⟨f r, ?_, (hkeeps r).1.trans hregistration, (hkeeps r).2.trans hvalid⟩, ?_⟩
  · rw [hregions]
    exact List.mem_append_left _ (List.mem_map_of_mem hr)
  · intro k hk
    rw [hgrown, List.mem_append]
    exact (hregistered k hk).imp_left (hall k)

theorem polledRegion_registration (host : Host) (s : VmiSession) (r : GuardRegion) :
    (polledRegion host s r).registration = r.registration ∧
      (polledRegion host s r).baselineValid = r.baselineValid := by
  obtain ⟨hash, hpolled⟩ := polledRegion_eq host s r
  rw [hpolled]
  exact ⟨rfl, rfl⟩

/-- After an arming without success, soundness is that of a guard that is not armed. -/
theorem sound_iff_unarmed {s : VmiSession} {g : Guard} {registered : List Registration} (hnone : ¬ GuardsTable s g) :
    Lifecycle.Sound ⟨s, g, registered⟩ ↔ s.nptArmed = false := by
  constructor
  · intro h
    by_contra harmed
    exact hnone (h (Bool.not_eq_false _ ▸ harmed)).1
  · intro hfalse harmed
    rw [hfalse] at harmed
    cases harmed

theorem arm_sound_iff (w : Lifecycle) (host : Host) (env : CStr → Option U64) (h : w.Sound) :
    (w.step (.arm host env)).Sound ↔ Rearms w (.arm host env) := by
  rw [Lifecycle.step, Rearms]
  cases htable : tableTranslates host w.session with
  | none =>
    obtain ⟨s, g, harm⟩ := nptGuardArm_unresolved htable env w.guard.state
    obtain ⟨harmed, hnone⟩ := arm_without_success (Or.inl harm)
    rw [harm, ← harmed]
    exact sound_iff_unarmed hnone
  | some gpa =>
    dsimp only
    rcases nptGuardArm_resolved htable env w.guard.state with
      ⟨hread, s, g, harm⟩ | ⟨hread, ⟨hlast, harm⟩ | ⟨hbelow, s, g, harm, hregistrations⟩⟩
    · obtain ⟨harmed, hnone⟩ := arm_without_success (Or.inr harm)
      rw [harm, hread, ← harmed]
      exact sound_iff_unarmed hnone
    · rw [harm, if_pos hread]
      exact iff_of_true h fun hbelow => absurd hbelow hlast
    · obtain ⟨harmed, htable⟩ := arm_with_success harm
      rw [harm, if_pos hread, ← hregistrations]
      rw [← hregistrations] at hbelow
      -- the table is built anew: what was registered before is in it only if it is armed again
      constructor
      · intro hsound _ k hk
        exact (hsound harmed).2 k (List.mem_append_left _ hk)
      · intro hall _
        refine ⟨htable, ?_⟩
        intro k hk
        exact (List.mem_append.mp hk).elim (hall hbelow k) id

theorem disarm_sound (w : Lifecycle) : (w.step .disarm).Sound := by
  intro harmed
  rw [Lifecycle.step, nptGuardDisarm] at harmed
  split at harmed
  next hunarmed => exact absurd harmed hunarmed
  · cases harmed

theorem protectDynamic_sound {w : Lifecycle} (h : w.Sound) (host : Host) (gpa size : U64) (critical : Bool)
    (name : CStr) : (w.step (.protectDynamic host gpa size critical name)).Sound := by
  rw [Lifecycle.step]
  split
  · exact h
  next ok gs hcall =>
    obtain ⟨new, hregions, hnew⟩ := protectDynamic_registrations hcall
    refine sound_of_grown h (f := id) (fun r => ⟨rfl, rfl⟩) (by rw [List.map_id]; exact hregions) ?_
    intro k hk
    split at hk
    next hok =>
      rcases List.mem_append.mp hk with hk | hk
      · exact Or.inl hk
      · rw [List.mem_singleton.mp hk]
        exact Or.inr (hnew hok)
    · exact Or.inl hk

theorem step_sound_iff (w : Lifecycle) (e : LifecycleEvent) (h : w.Sound) : (w.step e).Sound ↔ Rearms w e := by
  cases e with
  | arm host env => exact arm_sound_iff w host env h
  | disarm => exact iff_of_true (disarm_sound w) trivial
  | protectDynamic host gpa size critical name =>
    exact iff_of_true (protectDynamic_sound h host gpa size critical name) trivial
  | handleEvents host now allowPatch auth =>
    apply iff_of_true _ trivial
    rw [Lifecycle.step, Guard.step]
    split
    · exact h
    next g reports auth' hcall =>
      have hregions := (handleEvents_regions hcall).2
      refine sound_of_grown h ?_ (by rw [hregions, List.append_nil]) fun k hk => Or.inl hk
      intro r
      split
      · exact ⟨rfl, rfl⟩
      · exact polledRegion_registration host w.session r

/-- **When an armed guard is sound.** Over every sequence of calls from an unarmed session on. -/
theorem armed_sound_iff (s : VmiSession) (g : Guard) (es : List LifecycleEvent) :
    (∀ pre, pre <+: es → (run Lifecycle.step ⟨{ s with nptArmed := false }, g, []⟩ pre).Sound) ↔
      Along Lifecycle.step Rearms ⟨{ s with nptArmed := false }, g, []⟩ es := by
  refine Along.iff_inv step_sound_iff ?_
  intro harmed
  cases harmed

/-! Arming again. -/

/-- A guest whose page tables are gone. -/
def unmappedGuest : Host where
  ownMemory := fun _ => 0
  qemuMemory := fun _ => 0
  processVmReadv := fun _ _ _ => .failed
  devMem := none

/-- The state of the guest session of `guest_arms` after some calls. -/
def lifecycleOf (es : List LifecycleEvent) : Lifecycle := run Lifecycle.step ⟨guestSession, ⟨unarmedState, 0⟩, []⟩ es

/-- Armed twice: the second time the syscall table is not found, and the guard stays armed over an
    empty table. Where it is found, a region registered in between is gone. -/
theorem second_arming_unsound :
    ((lifecycleOf [.arm (guestWith 0x81) fun _ => none, .arm unmappedGuest fun _ => none]).session.nptArmed = true ∧
        (lifecycleOf [.arm (guestWith 0x81) fun _ => none, .arm unmappedGuest fun _ => none]).guard.registrations = []) ∧
      (lifecycleOf [.arm (guestWith 0x81) fun _ => none,
          .protectDynamic (guestWith 0x81) 0x3000000 8 true (ascii "rules"),
          .arm (guestWith 0x81) fun _ => none]).session.nptArmed = true ∧
      ⟨ascii "rules", 0x3000000, 8, true⟩ ∈
        (lifecycleOf [.arm (guestWith 0x81) fun _ => none,
          .protectDynamic (guestWith 0x81) 0x3000000 8 true (ascii "rules"),
          .arm (guestWith 0x81) fun _ => none]).registered ∧
      ⟨ascii "rules", 0x3000000, 8, true⟩ ∉
        (lifecycleOf [.arm (guestWith 0x81) fun _ => none,
          .protectDynamic (guestWith 0x81) 0x3000000 8 true (ascii "rules"),
          .arm (guestWith 0x81) fun _ => none]).guard.registrations := by
  decide +kernel

end SentinelStack.Vmi
