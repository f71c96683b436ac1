import SentinelStack.Lib.Run
import SentinelStack.Vmi.NpfHandler
import SentinelStack.Vmi.PhysicalRead

/- The guard at work (`npt_guard.c`): arming, the registrations of clients and the
   polls of the main loop, over memory that changes between them.

   A region's baseline is its own, but the syscall table is compared, entry by
   entry, with one global snapshot, and `snapshot_guard_region` takes that again
   for every region called `sys_call_table`, whoever registers it. Main result:
   `registrations_keep_snapshot_iff` — after arming, no registration touches the
   region of another; the snapshot stays that of arming if and only if every
   registration under that name finds the table as it was; and as long as it does,
   a poll that finds the table changed reports every entry that is. -/
namespace SentinelStack.Vmi
open SentinelStack.Lib

def sysCallTableBase66 : U64 := 0xffffffff82200300
def integrityCheckIntervalUs : U64 := 500000

/-- The static state, and the time of the last poll that was not too early. -/
structure Guard where
  state : GuardState
  lastIntegrityCheckUs : U64

/-! Arming. -/

/-- A region that the environment can add. All of them are critical. -/
structure EnvRegion where
  name : CStr
  gvaEnv : CStr
  sizeEnv : CStr
  defaultSize : U64

def optionalRegions : List EnvRegion :=
  [⟨ascii "idt", ascii "VMI_IDT_GVA", ascii "VMI_IDT_SIZE", 0x1000⟩,
    ⟨ascii "gdt", ascii "VMI_GDT_GVA", ascii "VMI_GDT_SIZE", 0x1000⟩,
    ⟨ascii "lstar", ascii "VMI_LSTAR_GVA", ascii "VMI_LSTAR_SIZE", 0x100⟩,
    ⟨ascii "kernel_text", ascii "VMI_KERNEL_TEXT_GVA", ascii "VMI_KERNEL_TEXT_SIZE", 0x200000⟩]

/-- `add_guard_region`; `none` when it is refused. -/
def addGuardRegion (t : GuardTable) (name : CStr) (gpa size : U64) (critical : Bool) : Option GuardTable :=
  if h : size = 0 ∨ t.regions.length ≥ maxGuardRegions then none
  else some (t.push (newRegion name gpa size critical fun h0 => h (Or.inl h0)) (by omega))

/-- `add_env_guard_region`; `env` is what `parse_env_u64` gives for a variable. -/
def addEnvGuardRegion (host : Host) (s : VmiSession) (env : CStr → Option U64) (t : GuardTable) (r : EnvRegion) :
    GuardTable :=
  match env r.gvaEnv with
  | none => t
  | some gva =>
    let size := ((env r.sizeEnv).filter fun size => size > 0).getD r.defaultSize
    match vmiGvaToGpa host s s.kernelPgd gva with
    | none => t
    | some gpa => (addGuardRegion t r.name gpa size true).getD t

/-- The baselines of the regions, in turn: whether all that must be there are, the regions with
    theirs, and the state after it. -/
def baselineRegions (host : Host) (s : VmiSession) :
    GuardState → List GuardRegion → Bool × List GuardRegion × GuardState
  | gs, [] => (true, [], gs)
  | gs, r :: rest =>
    match snapshotGuardRegion host s gs r with
    | (none, gs) =>
      if r.name = ascii "sys_call_table" then (false, r :: rest, gs)
      else
        let t := baselineRegions host s gs rest
        (t.1, r :: t.2.1, t.2.2)
    | (some r, gs) =>
      let t := baselineRegions host s gs rest
      (t.1, r :: t.2.1, t.2.2)

theorem length_baselineRegions (host : Host) (s : VmiSession) (gs : GuardState) (regions : List GuardRegion) :
    (baselineRegions host s gs regions).2.1.length = regions.length := by
  induction regions generalizing gs with
  | nil => rfl
  | cons r rest ih =>
    rw [baselineRegions]
    split
    · split
      · rfl
      · rw [List.length_cons, ih, List.length_cons]
    · rw [List.length_cons, ih, List.length_cons]

inductive ArmResult where
  /-- `sys_call_table` could not be resolved; the call succeeds, the guard is not armed. -/
  | unresolved (s : VmiSession) (g : Guard)
  | failed (s : VmiSession) (g : Guard)
  | armed (s : VmiSession) (g : Guard)

/-- `npt_guard_arm`; `none` when it does not return. -/
def nptGuardArm (host : Host) (env : CStr → Option U64) (s : VmiSession) (gs : GuardState) : Option ArmResult :=
  let gs := { gs with guardRegions := ⟨[], Nat.zero_le _⟩ }
  let s := { s with syscallTableGva := sysCallTableBase66 + s.kaslrOffset }
  if s.kernelPgd = 0 then some (.unresolved s ⟨gs, 0⟩)
  else
    match vmiGvaToGpa host s s.kernelPgd s.syscallTableGva with
    | none => some (.unresolved s ⟨gs, 0⟩)
    | some gpa =>
      let s := { s with syscallTableGpa := gpa }
      match addGuardRegion gs.guardRegions (ascii "sys_call_table") gpa (BitVec.ofNat 64 sysCallTableSize) true with
      | none => some (.failed s ⟨gs, 0⟩)
      | some table =>
        let table := optionalRegions.foldl (addEnvGuardRegion host s env) table
        let b := baselineRegions host s gs table.regions
        let gs := { b.2.2 with guardRegions := ⟨b.2.1, by rw [length_baselineRegions]; exact table.count_le⟩ }
        if b.1 then
          (b.2.1.mapM regionPages).map fun pages =>
            .armed { s with nptArmed := true } ⟨{ gs with readonlyPages := gs.readonlyPages ++ pages.flatten }, 0⟩
        else some (.failed s ⟨gs, 0⟩)

/-! Polling. -/

/-- A call into the fault handler, with the signal it sent. -/
inductive GuardReport where
  | process (gpa : U64) (signal : Option Signal)
  | integrity (signal : Signal)
  deriving DecidableEq

/-- The entry `i` of a table of 64-bit words. -/
def tableEntry (table : List U8) (i : Nat) : U64 := leWord ((table.drop (8 * i)).take 8)

/-- The entries that differ. -/
def syscallDiffs (clean current : List U8) : List Nat :=
  (List.range 512).filter fun i => tableEntry current i ≠ tableEntry clean i

/-- `npf_handler_process` on each address in turn, as a write. -/
def processWrites (s : VmiSession) (allowPatch : Option CStr) (regions : List GuardRegion) :
    AuthState → List U64 → List GuardReport × AuthState
  | auth, [] => ([], auth)
  | auth, gpa :: rest =>
    let r := npfHandlerProcess s auth allowPatch regions gpa true
    let t := processWrites s allowPatch regions r.2 rest
    (.process gpa r.1 :: t.1, t.2)

def reportSyscallTableDiffs (host : Host) (s : VmiSession) (gs : GuardState) (allowPatch : Option CStr)
    (auth : AuthState) : List GuardReport × AuthState :=
  if ¬ gs.snapshotTaken ∨ s.syscallTableGpa = 0 then ([], auth)
  else
    match (vmiReadPhysical host s s.syscallTableGpa sysCallTableSize).bytes? with
    | none => ([], auth)
    | some current =>
      processWrites s allowPatch gs.guardRegions.regions auth
        ((syscallDiffs gs.cleanSyscallTable current).map fun i => s.syscallTableGpa + BitVec.ofNat 64 (i * 8))

/-- `npf_handler_report_integrity_violation`; `reason` is cut to its 160-byte buffer. -/
def npfHandlerReportIntegrityViolation (regionName : CStr) (gpa expectedHash actualHash : U64) (critical : Bool) : Signal :=
  let reason := strncpyz 160 (regionName ++ ascii "_integrity_violation: GPA=0x" ++ fmtHex gpa ++ ascii " baseline=0x" ++
    fmtHex expectedHash ++ ascii " current=0x" ++ fmtHex actualHash)
  if critical then .malicious identifyMaliciousPid reason else .suspicious identifyMaliciousPid reason

/-- The hash of the region, where it is neither its baseline nor the one last reported. -/
def newMismatch (host : Host) (s : VmiSession) (r : GuardRegion) : Option U64 :=
  if r.baselineValid then
    (hashGuestRegion host s r.gpa r.size).filter fun hash => hash ≠ r.baselineHash ∧ hash ≠ r.lastAlertHash
  else none

/-- The region after a poll: the hash last reported is that of its bytes, 0 for the baseline. -/
def polledRegion (host : Host) (s : VmiSession) (r : GuardRegion) : GuardRegion :=
  if r.baselineValid then
    match hashGuestRegion host s r.gpa r.size with
    | none => r
    | some hash => { r with lastAlertHash := if hash = r.baselineHash then 0 else hash }
  else r

/-- What a poll reports, region by region. -/
def pollReports (host : Host) (s : VmiSession) (gs : GuardState) (allowPatch : Option CStr) :
    AuthState → List GuardRegion → List GuardReport × AuthState
  | auth, [] => ([], auth)
  | auth, r :: rest =>
    match newMismatch host s r with
    | none => pollReports host s gs allowPatch auth rest
    | some hash =>
      let reported :=
        if r.name = ascii "sys_call_table" then reportSyscallTableDiffs host s gs allowPatch auth
        else ([.integrity (npfHandlerReportIntegrityViolation r.name r.gpa r.baselineHash hash r.critical)], auth)
      let t := pollReports host s gs allowPatch reported.2 rest
      (reported.1 ++ t.1, t.2)

def GuardTable.map (f : GuardRegion → GuardRegion) (t : GuardTable) : GuardTable :=
  ⟨t.regions.map f, by rw [List.length_map]; exact t.count_le⟩

/-- The last poll was less than half a second ago. -/
def TooEarly (g : Guard) (now : U64) : Prop :=
  g.lastIntegrityCheckUs ≠ 0 ∧ now ≠ 0 ∧ now - g.lastIntegrityCheckUs < integrityCheckIntervalUs

instance (g : Guard) (now : U64) : Decidable (TooEarly g now) := inferInstanceAs (Decidable (_ ∧ _))

/-- `npt_guard_handle_events` at the monotonic time `now`: the guard after it, the reports and the
    authorisation left; `none` when it does not return, because the pages of a region that is
    protected again do not end. -/
def nptGuardHandleEvents (host : Host) (s : VmiSession) (now : U64) (allowPatch : Option CStr) (auth : AuthState)
    (g : Guard) : Option (Guard × List GuardReport × AuthState) :=
  if ¬ s.nptArmed ∨ TooEarly g now then some (g, [], auth)
  else
    let regions := g.state.guardRegions.regions
    let reports := pollReports host s g.state allowPatch auth regions
    ((regions.filter fun r => (newMismatch host s r).isSome).mapM regionPages).map fun pages =>
      (⟨{ g.state with
          guardRegions := g.state.guardRegions.map (polledRegion host s)
          readonlyPages := g.state.readonlyPages ++ pages.flatten },
        if now ≠ 0 then now else g.lastIntegrityCheckUs⟩, reports)

/-! A session: registrations and polls. -/

inductive GuardEvent where
  | register (host : Host) (gpa size : U64) (critical : Bool) (name : CStr)
  | poll (host : Host) (now : U64) (allowPatch : Option CStr) (auth : AuthState)

/-- The guard after a call. One that does not return is followed by no other. -/
def Guard.step (s : VmiSession) (g : Guard) : GuardEvent → Guard
  | .register host gpa size critical name =>
    match nptGuardProtectDynamic host s g.state gpa size critical name with
    | none => g
    | some (_, state) => { g with state := state }
  | .poll host now allowPatch auth =>
    match nptGuardHandleEvents host s now allowPatch auth g with
    | none => g
    | some (g, _, _) => g

/-! What a registration does. -/

/-- What `report_syscall_table_diffs` compares with. -/
def GuardState.snapshot (gs : GuardState) : List U8 × U64 × Bool :=
  (gs.cleanSyscallTable, gs.cleanSyscallHash, gs.snapshotTaken)

/-- The name, as far as it is kept, is that of the syscall table. -/
def NamesTable (name : CStr) : Prop := strncpyz regionNameMax name = ascii "sys_call_table"

instance (name : CStr) : Decidable (NamesTable name) := inferInstanceAs (Decidable (_ = _))

theorem snapshotGuardRegion_snd (host : Host) (s : VmiSession) (gs : GuardState) (r : GuardRegion) :
    (snapshotGuardRegion host s gs r).2 =
      if r.name = ascii "sys_call_table" then (snapshotSyscallTable host s gs).2 else gs := by
  unfold snapshotGuardRegion
  split
  · dsimp only
    split <;> rfl
  · split <;> rfl

theorem snapshotGuardRegion_readonlyPages (host : Host) (s : VmiSession) (gs : GuardState) (r : GuardRegion) :
    (snapshotGuardRegion host s gs r).2.readonlyPages = gs.readonlyPages := by
  rw [snapshotGuardRegion_snd]
  split
  · unfold snapshotSyscallTable
    dsimp only
    split <;> rfl
  · rfl

/-- A call that returns was refused, or has put one region behind the others; the snapshot is
    another one only if the region is called like the table. -/
theorem protectDynamic_spec {host : Host} {s : VmiSession} {gs gs' : GuardState} {gpa size : U64} {critical : Bool}
    {name : CStr} {ok : Bool} (h : nptGuardProtectDynamic host s gs gpa size critical name = some (ok, gs')) :
    (¬ Enters gs size ∧ gs' = gs) ∨
      (Enters gs size ∧
        (∃ r, gs'.guardRegions.regions = gs.guardRegions.regions ++ [r] ∧
          (s.nptArmed = true → r.baselineValid = true → (regionPages r).isSome)) ∧
        gs'.snapshot = (if NamesTable name then (snapshotSyscallTable host s gs).2 else gs).snapshot) := by
  rcases protectDynamic_cases h with ⟨hrefused, -, rfl⟩ | ⟨henters, hentered⟩
  · exact Or.inl ⟨hrefused, rfl⟩
  have hsnapshot : (snapshotGuardRegion host s gs (newRegion name gpa size critical henters.1)).2.snapshot =
      (if NamesTable name then (snapshotSyscallTable host s gs).2 else gs).snapshot :=
    congrArg GuardState.snapshot (snapshotGuardRegion_snd host s gs (newRegion name gpa size critical henters.1))
  refine Or.inr ⟨henters, ?_⟩
  rcases hentered with ⟨-, -, rfl⟩ | ⟨baselined, pages, -, -, hpages, rfl⟩
  · exact ⟨⟨_, rfl, fun _ hvalid => absurd hvalid (by simp [newRegion])⟩, hsnapshot⟩
  · refine ⟨⟨baselined, rfl, ?_⟩, hsnapshot⟩
    intro harmed _
    rw [if_pos harmed] at hpages
    rw [hpages]
    rfl

/-! What no call does. -/

/-- What a poll compares a region with. -/
def GuardRegion.baseline (r : GuardRegion) : U64 × U64 × U64 × Bool := (r.gpa, r.size, r.baselineHash, r.baselineValid)

/-- Neither what a poll compares a region with nor its name is changed. -/
def KeepsBaselines (f : GuardRegion → GuardRegion) : Prop := ∀ r, (f r).baseline = r.baseline ∧ (f r).name = r.name

/-- A poll changes only the hash that was alerted last. -/
theorem polledRegion_eq (host : Host) (s : VmiSession) (r : GuardRegion) :
    ∃ hash, polledRegion host s r = { r with lastAlertHash := hash } := by
  unfold polledRegion
  split
  · split
    · exact ⟨_, rfl⟩
    · exact ⟨_, rfl⟩
  · exact ⟨_, rfl⟩

theorem polledRegion_keeps (host : Host) (s : VmiSession) : KeepsBaselines (polledRegion host s) := by
  intro r
  obtain ⟨hash, hpolled⟩ := polledRegion_eq host s r
  rw [hpolled]
  exact ⟨rfl, rfl⟩

/-- **What a poll that returns has done.** It was not due, and did nothing; or it has polled every
    region, and protected the pages of those it reported again. -/
theorem handleEvents_cases {host : Host} {s : VmiSession} {now : U64} {allowPatch : Option CStr}
    {auth auth' : AuthState} {g g' : Guard} {reports : List GuardReport}
    (h : nptGuardHandleEvents host s now allowPatch auth g = some (g', reports, auth')) :
    ((¬ s.nptArmed ∨ TooEarly g now) ∧ g' = g ∧ reports = [] ∧ auth' = auth) ∨
      (¬ (¬ s.nptArmed ∨ TooEarly g now) ∧
        (reports, auth') = pollReports host s g.state allowPatch auth g.state.guardRegions.regions ∧
        ∃ pages,
          (g.state.guardRegions.regions.filter fun r => (newMismatch host s r).isSome).mapM regionPages = some pages ∧
          g' = ⟨{ g.state with
              guardRegions := g.state.guardRegions.map (polledRegion host s)
              readonlyPages := g.state.readonlyPages ++ pages.flatten },
            if now ≠ 0 then now else g.lastIntegrityCheckUs⟩) := by
  unfold nptGuardHandleEvents at h
  split at h
  next hidle =>
    cases h
    exact Or.inl ⟨hidle, rfl, rfl, rfl⟩
  next hdue =>
    obtain ⟨pages, hpages, heq⟩ := Option.map_eq_some_iff.mp h
    obtain ⟨hguard, hreports⟩ := Prod.mk.inj heq
    exact Or.inr ⟨hdue, hreports.symm, pages, hpages, hguard.symm⟩

/-- A poll that returns has polled every region, unless it was too early. -/
theorem handleEvents_regions {host : Host} {s : VmiSession} {now : U64} {allowPatch : Option CStr}
    {auth auth' : AuthState} {g g' : Guard} {reports : List GuardReport}
    (h : nptGuardHandleEvents host s now allowPatch auth g = some (g', reports, auth')) :
    g'.state.snapshot = g.state.snapshot ∧ g'.state.guardRegions.regions =
      g.state.guardRegions.regions.map (if ¬ s.nptArmed ∨ TooEarly g now then id else polledRegion host s) := by
  rcases handleEvents_cases h with ⟨hidle, rfl, -⟩ | ⟨hdue, -, pages, -, rfl⟩
  · rw [if_pos hidle, List.map_id]
    exact ⟨rfl, rfl⟩
  · rw [if_neg hdue]
    exact ⟨rfl, rfl⟩

/-- A poll that returns changes no snapshot, and of the regions nothing but what was last reported. -/
theorem handleEvents_spec {host : Host} {s : VmiSession} {now : U64} {allowPatch : Option CStr} {auth auth' : AuthState}
    {g g' : Guard} {reports : List GuardReport}
    (h : nptGuardHandleEvents host s now allowPatch auth g = some (g', reports, auth')) :
    g'.state.snapshot = g.state.snapshot ∧
      ∃ f, KeepsBaselines f ∧ g'.state.guardRegions.regions = g.state.guardRegions.regions.map f := by
  obtain ⟨hsnapshot, hregions⟩ := handleEvents_regions h
  refine ⟨hsnapshot, _, ?_, hregions⟩
  split
  · exact fun r => ⟨rfl, rfl⟩
  · exact polledRegion_keeps host s

/-- **What a call does to the regions**: those that are there keep their place and their
    baselines, and the pages of one that is new to an armed guard end. -/
theorem step_regions (s : VmiSession) (g : Guard) (e : GuardEvent) :
    ∃ f new, KeepsBaselines f ∧
      (g.step s e).state.guardRegions.regions = g.state.guardRegions.regions.map f ++ new ∧
      (s.nptArmed = true → ∀ r ∈ new, r.baselineValid = true → (regionPages r).isSome) := by
  have hidle : ∃ f new, KeepsBaselines f ∧ g.state.guardRegions.regions = g.state.guardRegions.regions.map f ++ new ∧
      (s.nptArmed = true → ∀ r ∈ new, r.baselineValid = true → (regionPages r).isSome) :=
    ⟨id, [], fun r => ⟨rfl, rfl⟩, by simp, by simp⟩
  cases e with
  | register host gpa size critical name =>
    rw [Guard.step]
    split
    · exact hidle
    next ok state hcall =>
      rcases protectDynamic_spec hcall with ⟨-, rfl⟩ | ⟨-, ⟨r, hregions, hpages⟩, -⟩
      · exact hidle
      · refine ⟨id, [r], fun r => ⟨rfl, rfl⟩, ?_, ?_⟩
        · rw [List.map_id]
          exact hregions
        · intro harmed r' hr'
          rw [List.mem_singleton.mp hr']
          exact hpages harmed
  | poll host now allowPatch auth =>
    rw [Guard.step]
    split
    · exact hidle
    next g' reports auth' hcall =>
      obtain ⟨-, f, hkeeps, hregions⟩ := handleEvents_spec hcall
      exact ⟨f, [], hkeeps, by rw [hregions, List.append_nil], by simp⟩

/-- The baselines of the table, in its order. -/
def Guard.baselines (g : Guard) : List (U64 × U64 × U64 × Bool) := g.state.guardRegions.regions.map (·.baseline)

/-- **The regions keep their baselines**, whatever is called. -/
theorem step_baselines (s : VmiSession) (g : Guard) (e : GuardEvent) : g.baselines <+: (g.step s e).baselines := by
  obtain ⟨f, new, hkeeps, hregions, -⟩ := step_regions s g e
  have hsame : GuardRegion.baseline ∘ f = GuardRegion.baseline := by
    funext r
    exact (hkeeps r).1
  rw [Guard.baselines, Guard.baselines, hregions, List.map_append, List.map_map, hsame]
  exact List.prefix_append _ _

/-! The syscall table. -/

/-- The region of the syscall table, with the baseline of the bytes `clean`. -/
structure GuardRegion.IsTable (s : VmiSession) (clean : List U8) (r : GuardRegion) : Prop where
  name : r.name = ascii "sys_call_table"
  baseline : r.baseline = (s.syscallTableGpa, BitVec.ofNat 64 sysCallTableSize, fnv1a64Update fnv1a64Init clean, true)

/-- An armed guard: the table is the first region, there is a snapshot, and the pages of every
    region that a poll can protect again end. -/
structure Guard.Armed (s : VmiSession) (clean : List U8) (g : Guard) : Prop where
  taken : g.state.snapshotTaken = true
  table : ∃ r rest, g.state.guardRegions.regions = r :: rest ∧ r.IsTable s clean
  ready : ∀ r ∈ g.state.guardRegions.regions, r.baselineValid = true → (regionPages r).isSome

theorem regionPages_congr {r r' : GuardRegion} (h : r'.baseline = r.baseline) : regionPages r' = regionPages r := by
  simp only [GuardRegion.baseline, Prod.mk.injEq] at h
  rw [regionPages, regionPages, h.1, h.2.1]

theorem snapshotSyscallTable_taken (host : Host) (s : VmiSession) {gs : GuardState} (h : gs.snapshotTaken = true) :
    (snapshotSyscallTable host s gs).2.snapshotTaken = true := by
  unfold snapshotSyscallTable
  dsimp only
  split
  · rfl
  · exact h

/-- A snapshot once taken is there. -/
theorem step_taken (s : VmiSession) {g : Guard} (h : g.state.snapshotTaken = true) (e : GuardEvent) :
    (g.step s e).state.snapshotTaken = true := by
  cases e with
  | register host gpa size critical name =>
    rw [Guard.step]
    split
    · exact h
    next ok state hcall =>
      rcases protectDynamic_spec hcall with ⟨-, rfl⟩ | ⟨-, -, hsnapshot⟩
      · exact h
      · have htaken : state.snapshotTaken = _ := congrArg (fun p => p.2.2) hsnapshot
        rw [htaken]
        split
        · exact snapshotSyscallTable_taken host s h
        · exact h
  | poll host now allowPatch auth =>
    rw [Guard.step]
    split
    · exact h
    next g' reports auth' hcall => exact (congrArg (fun p => p.2.2) (handleEvents_spec hcall).1).trans h

theorem step_armed {s : VmiSession} (hs : s.nptArmed = true) {clean : List U8} {g : Guard} (h : g.Armed s clean)
    (e : GuardEvent) : (g.step s e).Armed s clean := by
  obtain ⟨htaken, ⟨first, rest, hfirst, htable⟩, hready⟩ := h
  obtain ⟨f, new, hkeeps, hregions, hnew⟩ := step_regions s g e
  refine ⟨step_taken s htaken e, ⟨f first, rest.map f ++ new, ?_, ?_⟩, ?_⟩
  · rw [hregions, hfirst, List.map_cons, List.cons_append]
  · exact ⟨(hkeeps first).2.trans htable.name, (hkeeps first).1.trans htable.baseline⟩
  · intro r' hr' hvalid
    rw [hregions, List.mem_append, List.mem_map] at hr'
    rcases hr' with ⟨r, hr, rfl⟩ | hr'
    · have hvalid' : r.baselineValid = true := (congrArg (fun p => p.2.2.2) (hkeeps r).1).symm.trans hvalid
      rw [regionPages_congr (hkeeps r).1]
      exact hready r hr hvalid'
    · exact hnew hs r' hr' hvalid

/-- The snapshot holds these bytes, and their hash. -/
def Guard.SnapshotIs (clean : List U8) (g : Guard) : Prop :=
  g.state.cleanSyscallTable = clean ∧ g.state.cleanSyscallHash = fnv1a64Update fnv1a64Init clean

/-- The call does not put other bytes into the snapshot: it is no registration under the name of
    the table that enters and returns, or one that finds the table as the snapshot has it. -/
def Harmless (s : VmiSession) (clean : List U8) (g : Guard) : GuardEvent → Prop
  | .register host gpa size critical name =>
    (nptGuardProtectDynamic host s g.state gpa size critical name).isSome → Enters g.state size → NamesTable name →
      overwrite (vmiReadPhysical host s s.syscallTableGpa sysCallTableSize).buf clean = clean
  | .poll .. => True

/-- Taking the snapshot again leaves it alone if and only if it reads the same bytes. -/
theorem snapshotSyscallTable_is_iff {host : Host} {s : VmiSession} {clean : List U8} {gs gs' : GuardState}
    (hclean : gs.cleanSyscallTable = clean) (hhash : gs.cleanSyscallHash = fnv1a64Update fnv1a64Init clean)
    (hsnapshot : gs'.snapshot = (snapshotSyscallTable host s gs).2.snapshot) :
    gs'.cleanSyscallTable = clean ∧ gs'.cleanSyscallHash = fnv1a64Update fnv1a64Init clean ↔
      overwrite (vmiReadPhysical host s s.syscallTableGpa sysCallTableSize).buf clean = clean := by
  simp only [GuardState.snapshot, Prod.mk.injEq] at hsnapshot
  obtain ⟨htable, hhash', -⟩ := hsnapshot
  rw [htable, hhash', snapshotSyscallTable]
  dsimp only
  split
  · simp only [hclean]
    exact ⟨fun h => h.1, fun h => ⟨h, by rw [h]⟩⟩
  · simp only [hclean, hhash, and_true]

theorem step_snapshot_iff (s : VmiSession) (clean : List U8) (g : Guard) (e : GuardEvent) (h : g.SnapshotIs clean) :
    (g.step s e).SnapshotIs clean ↔ Harmless s clean g e := by
  cases e with
  | register host gpa size critical name =>
    rw [Guard.step, Harmless]
    split
    next hcall =>
      rw [hcall]
      exact iff_of_true h fun hreturns => absurd hreturns (by simp)
    next ok state hcall =>
      rw [hcall]
      rcases protectDynamic_spec hcall with ⟨hrefused, rfl⟩ | ⟨henters, -, hsnapshot⟩
      · exact iff_of_true h fun _ henters => absurd henters hrefused
      · by_cases hname : NamesTable name
        · rw [if_pos hname] at hsnapshot
          simp only [Option.isSome_some, henters, hname, forall_const]
          exact snapshotSyscallTable_is_iff h.1 h.2 hsnapshot
        · rw [if_neg hname] at hsnapshot
          simp only [GuardState.snapshot, Prod.mk.injEq] at hsnapshot
          exact iff_of_true ⟨hsnapshot.1.trans h.1, hsnapshot.2.1.trans h.2⟩ fun _ _ hnamed => absurd hnamed hname
  | poll host now allowPatch auth =>
    rw [Guard.step]
    apply iff_of_true _ trivial
    split
    · exact h
    next g' reports auth' hcall =>
      have hsnapshot := (handleEvents_spec hcall).1
      simp only [GuardState.snapshot, Prod.mk.injEq] at hsnapshot
      exact ⟨hsnapshot.1.trans h.1, hsnapshot.2.1.trans h.2⟩

/-! Detection. -/

/-- Where the table has a hash it could be read. -/
theorem hashGuestRegion_table {host : Host} {s : VmiSession} {gpa hash : U64}
    (h : hashGuestRegion host s gpa (BitVec.ofNat 64 sysCallTableSize) = some hash) :
    ∃ current, (vmiReadPhysical host s gpa sysCallTableSize).bytes? = some current := by
  rw [hashGuestRegion_table_eq, Option.map_eq_some_iff] at h
  obtain ⟨current, hread, -⟩ := h
  exact ⟨current, hread⟩

theorem mem_processWrites (s : VmiSession) (allowPatch : Option CStr) (regions : List GuardRegion) (auth : AuthState)
    {gpas : List U64} {gpa : U64} (h : gpa ∈ gpas) :
    ∃ signal, .process gpa signal ∈ (processWrites s allowPatch regions auth gpas).1 := by
  induction gpas generalizing auth with
  | nil => exact absurd h List.not_mem_nil
  | cons first rest ih =>
    rw [processWrites]
    rcases List.mem_cons.mp h with rfl | h
    · exact ⟨_, List.mem_cons_self⟩
    · obtain ⟨signal, hsignal⟩ := ih (npfHandlerProcess s auth allowPatch regions first true).2 h
      exact ⟨signal, List.mem_cons_of_mem _ hsignal⟩

theorem mapM_isSome_iff {α β : Type} {f : α → Option β} {l : List α} :
    (l.mapM f).isSome ↔ ∀ x ∈ l, (f x).isSome := by
  induction l with
  | nil => simp
  | cons x l ih =>
    rw [List.mapM_cons, List.forall_mem_cons, ← ih]
    cases f x with
    | none => simp
    | some y => cases l.mapM f <;> simp

theorem newMismatch_some {host : Host} {s : VmiSession} {r : GuardRegion} {hash : U64}
    (h : newMismatch host s r = some hash) : r.baselineValid = true ∧ hashGuestRegion host s r.gpa r.size = some hash := by
  unfold newMismatch at h
  split at h
  next hvalid => exact ⟨hvalid, (Option.filter_eq_some_iff.mp h).1⟩
  · cases h

/-- A poll that is due and finds a new mismatching hash of the table returns, and passes the
    address of every entry that is not as in `clean` to the fault handler. -/
def Guard.Detects (s : VmiSession) (clean : List U8) (g : Guard) : Prop :=
  ∀ host now allowPatch auth first rest, g.state.guardRegions.regions = first :: rest → ¬ TooEarly g now →
    (newMismatch host s first).isSome →
    ∃ current g' reports auth', (vmiReadPhysical host s s.syscallTableGpa sysCallTableSize).bytes? = some current ∧
      nptGuardHandleEvents host s now allowPatch auth g = some (g', reports, auth') ∧
      ∀ i < 512, tableEntry current i ≠ tableEntry clean i →
        ∃ signal, .process (s.syscallTableGpa + BitVec.ofNat 64 (i * 8)) signal ∈ reports

/-- A poll that is due returns: the pages of every region it protects again end. -/
theorem handleEvents_due {s : VmiSession} (hs : s.nptArmed = true) {clean : List U8} {g : Guard}
    (harmed : g.Armed s clean) (host : Host) {now : U64} (hdue : ¬ TooEarly g now) (allowPatch : Option CStr)
    (auth : AuthState) :
    ∃ g', nptGuardHandleEvents host s now allowPatch auth g =
      some (g', pollReports host s g.state allowPatch auth g.state.guardRegions.regions) := by
  have hpages :
      ((g.state.guardRegions.regions.filter fun r => (newMismatch host s r).isSome).mapM regionPages).isSome := by
    apply mapM_isSome_iff.mpr
    intro r hr
    obtain ⟨hmem, hnew⟩ := List.mem_filter.mp hr
    obtain ⟨hash, hhash⟩ := Option.isSome_iff_exists.mp hnew
    exact harmed.ready r hmem (newMismatch_some hhash).1
  obtain ⟨pages, hpages⟩ := Option.isSome_iff_exists.mp hpages
  have hcall : ¬ (¬ s.nptArmed = true ∨ TooEarly g now) := by
    rw [not_or, not_not]
    exact ⟨hs, hdue⟩
  rw [nptGuardHandleEvents, if_neg hcall]
  dsimp only
  rw [hpages, Option.map_some]
  exact ⟨_, rfl⟩

/-- **Detection**, for as long as the snapshot is that of the baseline. -/
theorem detects_of_snapshot {s : VmiSession} (hs : s.nptArmed = true) (hgpa : s.syscallTableGpa ≠ 0) {clean : List U8}
    {g : Guard} (harmed : g.Armed s clean) (hsnapshot : g.SnapshotIs clean) : g.Detects s clean := by
  intro host now allowPatch auth first rest hregions hdue hmismatch
  obtain ⟨hash, hhash⟩ := Option.isSome_iff_exists.mp hmismatch
  obtain ⟨first', rest', hregions', htable⟩ := harmed.table
  obtain rfl : first' = first := (List.cons.inj (hregions'.symm.trans hregions)).1
  have hbaseline := htable.baseline
  simp only [GuardRegion.baseline, Prod.mk.injEq] at hbaseline
  have htablehash := (newMismatch_some hhash).2
  rw [hbaseline.1, hbaseline.2.1] at htablehash
  obtain ⟨current, hread⟩ := hashGuestRegion_table htablehash
  obtain ⟨g', hcall⟩ := handleEvents_due hs harmed host hdue allowPatch auth
  refine ⟨current, g', _, _, hread, hcall, ?_⟩
  intro i hi hdiff
  have hmem : s.syscallTableGpa + BitVec.ofNat 64 (i * 8) ∈
      (syscallDiffs g.state.cleanSyscallTable current).map fun i => s.syscallTableGpa + BitVec.ofNat 64 (i * 8) := by
    apply List.mem_map_of_mem
    rw [syscallDiffs, List.mem_filter, hsnapshot.1]
    exact ⟨List.mem_range.mpr hi, decide_eq_true hdiff⟩
  obtain ⟨signal, hsignal⟩ := mem_processWrites s allowPatch g.state.guardRegions.regions auth hmem
  refine ⟨signal, ?_⟩
  have hreport : ¬ (¬ g.state.snapshotTaken = true ∨ s.syscallTableGpa = 0) := by
    rw [not_or, not_not]
    exact ⟨harmed.taken, hgpa⟩
  rw [hregions, pollReports, hhash]
  dsimp only
  rw [if_pos htable.name, reportSyscallTableDiffs, if_neg hreport, hread]
  exact List.mem_append_left _ hsignal

/-- A snapshot of the changed table reports nothing: what is compared is the table with itself. -/
theorem pollReports_silent {host : Host} {s : VmiSession} {gs : GuardState}
    (hread : (vmiReadPhysical host s s.syscallTableGpa sysCallTableSize).bytes? = some gs.cleanSyscallTable)
    {regions : List GuardRegion} (hnames : ∀ r ∈ regions, r.name = ascii "sys_call_table") (allowPatch : Option CStr)
    (auth : AuthState) : pollReports host s gs allowPatch auth regions = ([], auth) := by
  have hdiffs : syscallDiffs gs.cleanSyscallTable gs.cleanSyscallTable = [] := by
    rw [syscallDiffs, List.filter_eq_nil_iff]
    simp
  have hreport : reportSyscallTableDiffs host s gs allowPatch auth = ([], auth) := by
    rw [reportSyscallTableDiffs]
    split
    · rfl
    · rw [hread]
      dsimp only
      rw [hdiffs]
      rfl
  induction regions with
  | nil => rfl
  | cons r rest ih =>
    have hrest := ih fun r' hr' => hnames r' (List.mem_cons_of_mem r hr')
    rw [pollReports]
    split
    · exact hrest
    · dsimp only
      rw [if_pos (hnames r List.mem_cons_self), hreport, hrest]
      rfl

/-! What arming establishes. -/

theorem addGuardRegion_some {t t' : GuardTable} {name : CStr} {gpa size : U64} {critical : Bool}
    (h : addGuardRegion t name gpa size critical = some t') :
    ∃ hsize, t'.regions = t.regions ++ [newRegion name gpa size critical hsize] := by
  unfold addGuardRegion at h
  split at h
  · cases h
  · cases h
    exact ⟨_, rfl⟩

/-- The environment adds regions behind those that are there, and none called like the table. -/
theorem addEnvGuardRegion_regions (host : Host) (s : VmiSession) (env : CStr → Option U64) (t : GuardTable)
    {e : EnvRegion} (he : ¬ NamesTable e.name) :
    ∃ extra, (addEnvGuardRegion host s env t e).regions = t.regions ++ extra ∧
      ∀ r ∈ extra, r.name ≠ ascii "sys_call_table" := by
  have hnone : ∃ extra, t.regions = t.regions ++ extra ∧ ∀ r ∈ extra, r.name ≠ ascii "sys_call_table" :=
    ⟨[], by simp, by simp⟩
  unfold addEnvGuardRegion
  split
  · exact hnone
  · dsimp only
    split
    · exact hnone
    · cases hadd : addGuardRegion t e.name _ _ true with
      | none => exact hnone
      | some t' =>
        obtain ⟨hsize, hregions⟩ := addGuardRegion_some hadd
        refine ⟨_, hregions, ?_⟩
        intro r hr
        rw [List.mem_singleton.mp hr]
        exact he

theorem optionalRegions_regions (host : Host) (s : VmiSession) (env : CStr → Option U64) (t : GuardTable)
    {es : List EnvRegion} (hes : ∀ e ∈ es, ¬ NamesTable e.name) :
    ∃ extra, (es.foldl (addEnvGuardRegion host s env) t).regions = t.regions ++ extra ∧
      ∀ r ∈ extra, r.name ≠ ascii "sys_call_table" := by
  induction es generalizing t with
  | nil => exact ⟨[], by simp, by simp⟩
  | cons e es ih =>
    obtain ⟨extra, hextra, hnames⟩ := addEnvGuardRegion_regions host s env t (hes e List.mem_cons_self)
    obtain ⟨extra', hextra', hnames'⟩ := ih (addEnvGuardRegion host s env t e) fun e' he' =>
      hes e' (List.mem_cons_of_mem e he')
    refine ⟨extra ++ extra', ?_, ?_⟩
    · rw [List.foldl_cons, hextra', hextra, List.append_assoc]
    · intro r hr
      exact (List.mem_append.mp hr).elim (hnames r) (hnames' r)

/-- The baseline of any other region leaves the state alone. -/
theorem baselineRegions_state (host : Host) (s : VmiSession) (gs : GuardState) {regions : List GuardRegion}
    (h : ∀ r ∈ regions, r.name ≠ ascii "sys_call_table") : (baselineRegions host s gs regions).2.2 = gs := by
  induction regions with
  | nil => rfl
  | cons r rest ih =>
    have hr := h r List.mem_cons_self
    have hstate := snapshotGuardRegion_snd host s gs r
    rw [if_neg hr] at hstate
    have hrest := ih fun r' hr' => h r' (List.mem_cons_of_mem r hr')
    rw [baselineRegions]
    split
    next gs' hsnap =>
      rw [hsnap] at hstate
      rw [if_neg hr]
      exact hstate ▸ hrest
    next r' gs' hsnap =>
      rw [hsnap] at hstate
      exact hstate ▸ hrest

/-- No baseline protects a page. -/
theorem baselineRegions_readonlyPages (host : Host) (s : VmiSession) (gs : GuardState) (regions : List GuardRegion) :
    (baselineRegions host s gs regions).2.2.readonlyPages = gs.readonlyPages := by
  induction regions generalizing gs with
  | nil => rfl
  | cons r rest ih =>
    have hpages := snapshotGuardRegion_readonlyPages host s gs r
    rw [baselineRegions]
    split
    next gs' hsnap =>
      rw [hsnap] at hpages
      split
      · exact hpages
      · exact (ih gs').trans hpages
    next r' gs' hsnap =>
      rw [hsnap] at hpages
      exact (ih gs').trans hpages

theorem snapshotSyscallTable_ok {host : Host} {s : VmiSession} {gs : GuardState}
    (hlen : gs.cleanSyscallTable.length = sysCallTableSize) (h : (snapshotSyscallTable host s gs).1 = true) :
    (vmiReadPhysical host s s.syscallTableGpa sysCallTableSize).bytes? =
        some (snapshotSyscallTable host s gs).2.cleanSyscallTable ∧
      (snapshotSyscallTable host s gs).2.cleanSyscallHash =
        fnv1a64Update fnv1a64Init (snapshotSyscallTable host s gs).2.cleanSyscallTable ∧
      (snapshotSyscallTable host s gs).2.snapshotTaken = true := by
  have hok : (vmiReadPhysical host s s.syscallTableGpa sysCallTableSize).ok = true := by
    by_contra hno
    rw [snapshotSyscallTable] at h
    dsimp only at h
    rw [if_neg hno] at h
    cases h
  have hfull := (vmiReadPhysical_serves host s s.syscallTableGpa sysCallTableSize).complete hok
  have htable : overwrite (vmiReadPhysical host s s.syscallTableGpa sysCallTableSize).buf gs.cleanSyscallTable =
      (vmiReadPhysical host s s.syscallTableGpa sysCallTableSize).buf := by
    rw [overwrite, List.drop_of_length_le (by omega), List.append_nil]
  rw [snapshotSyscallTable]
  dsimp only
  rw [if_pos hok, ReadResult.bytes?, if_pos hok]
  exact ⟨congrArg some htable.symm, rfl, rfl⟩

/-- The baselines of a table that begins with the syscall table, where all that must be there are. -/
theorem baselineRegions_table {host : Host} {s : VmiSession} {gs : GuardState} {first : GuardRegion}
    {rest : List GuardRegion}
    (hname : first.name = ascii "sys_call_table") (hrest : ∀ r ∈ rest, r.name ≠ ascii "sys_call_table")
    (hok : (baselineRegions host s gs (first :: rest)).1 = true) :
    ∃ rest', (snapshotSyscallTable host s gs).1 = true ∧
      (baselineRegions host s gs (first :: rest)).2.2 = (snapshotSyscallTable host s gs).2 ∧
      (baselineRegions host s gs (first :: rest)).2.1 =
        { first with
          baselineHash := (snapshotSyscallTable host s gs).2.cleanSyscallHash
          baselineValid := true
          lastAlertHash := 0 } :: rest' := by
  have hsnap : (snapshotSyscallTable host s gs).1 = true := by
    by_contra hno
    rw [baselineRegions, snapshotGuardRegion, if_pos hname] at hok
    simp [hno, hname] at hok
  rw [baselineRegions, snapshotGuardRegion, if_pos hname]
  dsimp only
  rw [if_pos hsnap]
  exact ⟨_, hsnap, baselineRegions_state host s _ hrest, rfl⟩

theorem optionalRegions_names : ∀ e ∈ optionalRegions, ¬ NamesTable e.name := by decide +kernel

/-- The session once `resolve_syscall_table` has found the table. -/
def resolvedSession (s : VmiSession) (gpa : U64) : VmiSession :=
  { s with syscallTableGva := sysCallTableBase66 + s.kaslrOffset, syscallTableGpa := gpa }

/-- The first region of a rebuilt table. -/
def tableRegion (gpa : U64) : GuardRegion :=
  newRegion (ascii "sys_call_table") gpa (BitVec.ofNat 64 sysCallTableSize) true (by decide)

def GuardState.cleared (gs : GuardState) : GuardState := { gs with guardRegions := ⟨[], Nat.zero_le _⟩ }

/-- **What arming can do.** It has emptied the table, and found no syscall table; or it has rebuilt
    it, and failed or succeeded with the baselines. -/
theorem nptGuardArm_cases {host : Host} {env : CStr → Option U64} {s₀ : VmiSession} {gs : GuardState}
    {result : ArmResult} (h : nptGuardArm host env s₀ gs = some result) :
    (∃ s g, result = .unresolved s g ∧ s.nptArmed = s₀.nptArmed ∧ g.state = gs.cleared) ∨
      ∃ gpa extra, (∀ r ∈ extra, r.name ≠ ascii "sys_call_table") ∧
        ((baselineRegions host (resolvedSession s₀ gpa) gs.cleared (tableRegion gpa :: extra)).1 = false ∧
            (∃ g, result = .failed (resolvedSession s₀ gpa) g ∧ g.state.guardRegions.regions =
              (baselineRegions host (resolvedSession s₀ gpa) gs.cleared (tableRegion gpa :: extra)).2.1) ∨
          (baselineRegions host (resolvedSession s₀ gpa) gs.cleared (tableRegion gpa :: extra)).1 = true ∧
            ∃ g, result = .armed { resolvedSession s₀ gpa with nptArmed := true } g ∧
              g.state.guardRegions.regions =
                (baselineRegions host (resolvedSession s₀ gpa) gs.cleared (tableRegion gpa :: extra)).2.1 ∧
              g.state.snapshot =
                (baselineRegions host (resolvedSession s₀ gpa) gs.cleared (tableRegion gpa :: extra)).2.2.snapshot ∧
              ∃ pages, g.state.guardRegions.regions.mapM regionPages = some pages ∧
                g.state.readonlyPages = gs.readonlyPages ++ pages.flatten) := by
  unfold nptGuardArm at h
  dsimp only at h
  split at h
  · cases h
    exact Or.inl ⟨_, _, rfl, rfl, rfl⟩
  split at h
  · cases h
    exact Or.inl ⟨_, _, rfl, rfl, rfl⟩
  next gpa _ =>
  split at h
  next hadd =>
    -- the table was emptied: there is room in it
    rw [addGuardRegion, dif_neg (by decide)] at hadd
    cases hadd
  next table htable =>
    obtain ⟨hsize, hfirst⟩ := addGuardRegion_some htable
    obtain ⟨extra, hextra, hnames⟩ := optionalRegions_regions host (resolvedSession s₀ gpa) env table
      optionalRegions_names
    have hregions : (optionalRegions.foldl (addEnvGuardRegion host (resolvedSession s₀ gpa) env) table).regions =
        tableRegion gpa :: extra := by
      rw [hextra, hfirst]
      rfl
    refine Or.inr ⟨gpa, extra, hnames, ?_⟩
    rw [← hregions]
    split at h
    next hok =>
      obtain ⟨pages, hpages, heq⟩ := Option.map_eq_some_iff.mp h
      refine Or.inr ⟨hok, _, heq.symm, rfl, rfl, pages, hpages, ?_⟩
      exact congrArg (· ++ pages.flatten) (baselineRegions_readonlyPages ..)
    next hfailed =>
      cases h
      exact Or.inl ⟨Bool.eq_false_iff.mpr hfailed, _, rfl, rfl⟩

/-- **Arming** takes the snapshot and the baseline of the table from the same bytes. -/
theorem arm_spec {host : Host} {env : CStr → Option U64} {s₀ s : VmiSession} {gs : GuardState} {g : Guard}
    (hlen : gs.cleanSyscallTable.length = sysCallTableSize) (h : nptGuardArm host env s₀ gs = some (.armed s g)) :
    s.nptArmed = true ∧ g.Armed s g.state.cleanSyscallTable ∧ g.SnapshotIs g.state.cleanSyscallTable ∧
      (vmiReadPhysical host { s with nptArmed := s₀.nptArmed } s.syscallTableGpa sysCallTableSize).bytes? =
        some g.state.cleanSyscallTable := by
  rcases nptGuardArm_cases h with ⟨_, _, heq, -⟩ | ⟨gpa, extra, hnames, ⟨-, _, heq, -⟩ | ⟨hok, g', heq, hregions, hstate, pages, hpages, -⟩⟩
  · cases heq
  · cases heq
  · obtain ⟨rfl, rfl⟩ := ArmResult.armed.inj heq
    obtain ⟨rest', hsnap, hstate', hlist⟩ := baselineRegions_table rfl hnames hok
    have hcleared : gs.cleared.cleanSyscallTable.length = sysCallTableSize := hlen
    obtain ⟨hread, hhash, htaken⟩ := snapshotSyscallTable_ok hcleared hsnap
    rw [hstate'] at hstate
    simp only [GuardState.snapshot, Prod.mk.injEq] at hstate
    obtain ⟨hclean, hcleanHash, htaken'⟩ := hstate
    rw [hlist] at hregions
    refine ⟨rfl, ⟨htaken'.trans htaken, ⟨_, rest', hregions, rfl, ?_⟩, ?_⟩, ⟨rfl, ?_⟩, ?_⟩
    · rw [GuardRegion.baseline, hhash, hclean]
      rfl
    · exact fun r hr _ => mapM_isSome_iff.mp (by rw [hpages]; rfl) r hr
    · rw [hcleanHash, hclean, hhash]
    · rw [hclean]
      exact hread

/-- The snapshot of an armed guard is a whole table. -/
theorem length_snapshot {host : Host} {env : CStr → Option U64} {s₀ s : VmiSession} {gs : GuardState} {g : Guard}
    (hlen : gs.cleanSyscallTable.length = sysCallTableSize) (h : nptGuardArm host env s₀ gs = some (.armed s g)) :
    g.state.cleanSyscallTable.length = sysCallTableSize := by
  obtain ⟨-, -, -, hread⟩ := arm_spec hlen h
  unfold ReadResult.bytes? at hread
  split at hread
  next hok =>
    rw [← Option.some.inj hread]
    exact (vmiReadPhysical_serves host _ s.syscallTableGpa sysCallTableSize).complete hok
  · cases hread

/-- A registration under the name of the table that can read it makes what it reads the snapshot. -/
theorem register_snapshot {host : Host} {s : VmiSession} {gs gs' : GuardState} {gpa size : U64} {critical : Bool}
    {name : CStr} {ok : Bool} (hlen : gs.cleanSyscallTable.length = sysCallTableSize)
    (h : nptGuardProtectDynamic host s gs gpa size critical name = some (ok, gs')) (henters : Enters gs size)
    (hname : NamesTable name) (hread : (vmiReadPhysical host s s.syscallTableGpa sysCallTableSize).ok = true) :
    (vmiReadPhysical host s s.syscallTableGpa sysCallTableSize).bytes? = some gs'.cleanSyscallTable := by
  rcases protectDynamic_spec h with ⟨hrefused, -⟩ | ⟨-, -, hsnapshot⟩
  · exact absurd henters hrefused
  · rw [if_pos hname] at hsnapshot
    have htable : gs'.cleanSyscallTable = (snapshotSyscallTable host s gs).2.cleanSyscallTable :=
      congrArg (fun p => p.1) hsnapshot
    have hok : (snapshotSyscallTable host s gs).1 = true := by
      rw [snapshotSyscallTable]
      dsimp only
      rw [if_pos hread]
    rw [htable]
    exact (snapshotSyscallTable_ok hlen hok).1

/-! Whole sessions. -/

/-- **What registrations leave alone.** From arming on, over every sequence of registrations and
    polls, the regions keep their baselines. The snapshot of the table keeps its bytes and their
    hash if and only if every call is harmless. While it does, changed entries are reported. -/
theorem registrations_keep_snapshot_iff (host₀ : Host) (env : CStr → Option U64) (s₀ s : VmiSession) (gs : GuardState)
    (hlen : gs.cleanSyscallTable.length = sysCallTableSize) (g₀ : Guard)
    (harm : nptGuardArm host₀ env s₀ gs = some (.armed s g₀)) (es : List GuardEvent) :
    (∀ pre, pre <+: es → g₀.baselines <+: (run (Guard.step s) g₀ pre).baselines) ∧
      ((∀ pre, pre <+: es → (run (Guard.step s) g₀ pre).SnapshotIs g₀.state.cleanSyscallTable) ↔
        Along (Guard.step s) (Harmless s g₀.state.cleanSyscallTable) g₀ es) ∧
      (s.syscallTableGpa ≠ 0 → Along (Guard.step s) (Harmless s g₀.state.cleanSyscallTable) g₀ es →
        ∀ pre, pre <+: es → (run (Guard.step s) g₀ pre).Detects s g₀.state.cleanSyscallTable) := by
  obtain ⟨hs, harmed, hsnapshot, -⟩ := arm_spec hlen harm
  have hexact : (∀ pre, pre <+: es → (run (Guard.step s) g₀ pre).SnapshotIs g₀.state.cleanSyscallTable) ↔
      Along (Guard.step s) (Harmless s g₀.state.cleanSyscallTable) g₀ es :=
    Along.iff_inv (step_snapshot_iff s g₀.state.cleanSyscallTable) hsnapshot
  have hbaselines : ∀ pre, g₀.baselines <+: (run (Guard.step s) g₀ pre).baselines :=
    run_inv (I := fun g => g₀.baselines <+: Guard.baselines g) (fun g e hg => hg.trans (step_baselines s g e))
      List.prefix_rfl
  have harmed' : ∀ pre, (run (Guard.step s) g₀ pre).Armed s g₀.state.cleanSyscallTable :=
    run_inv (I := Guard.Armed s g₀.state.cleanSyscallTable) (fun g e hg => step_armed hs hg e) harmed
  refine ⟨fun pre _ => hbaselines pre, hexact, fun hgpa halong pre hpre => ?_⟩
  exact detects_of_snapshot hs hgpa (harmed' pre) (hexact.mpr halong pre hpre)

/-! A client that registers under the name of the table, after it was changed. -/

/-- Every entry of the guest's tables is `0x81`: present, and a huge page at 0. The entry 0 of
    the syscall table is then at `0x2200300`, where `entry` is what it holds. -/
def guestWith (entry : U8) : Host where
  ownMemory := fun a => if a = 0x2200300 then entry else if a &&& 7 = 0 then 0x81 else 0
  qemuMemory := fun _ => 0
  processVmReadv := fun _ _ _ => .failed
  devMem := none

def guestSession : VmiSession := ⟨[⟨0, 0x4000000, 0, 0, 0⟩], 0, 0, 0, false, 0, 0x1000⟩

def unarmedState : GuardState := ⟨⟨[], Nat.zero_le _⟩, List.replicate sysCallTableSize 0, false, 0, []⟩

/-- The registration after arming enters, returns, and finds another first byte in the table. -/
def changedAtRegistration (name : CStr) : ArmResult → Bool
  | .armed s g =>
    (nptGuardProtectDynamic (guestWith 0x41) s g.state 0x3000000 8 false name).any fun r =>
      g.state.guardRegions.regions.length < maxGuardRegions ∧
        (vmiReadPhysical (guestWith 0x41) s s.syscallTableGpa sysCallTableSize).ok ∧
        r.2.cleanSyscallTable.take 1 ≠ g.state.cleanSyscallTable.take 1 ∧
        ∀ region ∈ r.2.guardRegions.regions, region.name = ascii "sys_call_table"
  | _ => false

/-- The guard was armed, with a session and a state that pass the test. -/
def ArmResult.armedWith (test : VmiSession → Guard → Bool) : ArmResult → Bool
  | armed s g => test s g
  | _ => false

theorem exists_armed {result : Option ArmResult} {test : VmiSession → Guard → Bool}
    (h : result.any (·.armedWith test) = true) : ∃ s g, result = some (.armed s g) ∧ test s g = true := by
  obtain ⟨r, harm, htest⟩ := (Option.any_eq_true _ _).mp h
  cases r with
  | unresolved s g => cases htest
  | failed s g => cases htest
  | armed s g => exact ⟨s, g, harm, htest⟩

/-- The guard arms over this guest. -/
theorem guest_arms : ∃ s g,
    nptGuardArm (guestWith 0x81) (fun _ => none) guestSession unarmedState = some (.armed s g) ∧
      s.syscallTableGpa ≠ 0 ∧ changedAtRegistration (ascii "sys_call_table") (.armed s g) = true := by
  have hrun : (nptGuardArm (guestWith 0x81) (fun _ => none) guestSession unarmedState).any (·.armedWith fun s g =>
      s.syscallTableGpa ≠ 0 ∧ changedAtRegistration (ascii "sys_call_table") (.armed s g) = true) = true := by
    decide +kernel
  obtain ⟨s, g, harm, hfacts⟩ := exists_armed hrun
  exact ⟨s, g, harm, of_decide_eq_true hfacts⟩

/-- Registered under another name, the same region leaves the snapshot alone. -/
theorem other_name_keeps_snapshot : ∃ s g,
    nptGuardArm (guestWith 0x81) (fun _ => none) guestSession unarmedState = some (.armed s g) ∧
      g.baselines <+: (run (Guard.step s) g [.register (guestWith 0x41) 0x3000000 8 false (ascii "idt_entry")]).baselines ∧
      (run (Guard.step s) g [.register (guestWith 0x41) 0x3000000 8 false (ascii "idt_entry")]).SnapshotIs
        g.state.cleanSyscallTable ∧
      (run (Guard.step s) g [.register (guestWith 0x41) 0x3000000 8 false (ascii "idt_entry")]).Detects s
        g.state.cleanSyscallTable := by
  obtain ⟨s, g, harm, hgpa, -⟩ := guest_arms
  have hother : ¬ NamesTable (ascii "idt_entry") := by decide +kernel
  have halong : Along (Guard.step s) (Harmless s g.state.cleanSyscallTable) g
      [.register (guestWith 0x41) 0x3000000 8 false (ascii "idt_entry")] :=
    ⟨fun _ _ hname => absurd hname hother, trivial⟩
  obtain ⟨hbaselines, hsnapshot, hdetects⟩ := registrations_keep_snapshot_iff (guestWith 0x81) (fun _ => none)
    guestSession s unarmedState List.length_replicate g harm
    [.register (guestWith 0x41) 0x3000000 8 false (ascii "idt_entry")]
  exact ⟨s, g, harm, hbaselines _ List.prefix_rfl, hsnapshot.mpr halong _ List.prefix_rfl,
    hdetects hgpa halong _ List.prefix_rfl⟩

/-- A region registered under the name of the table takes the change into the snapshot, and no
    poll reports it. -/
theorem renamed_region_hides_change : ∃ s g ok gs,
    nptGuardArm (guestWith 0x81) (fun _ => none) guestSession unarmedState = some (.armed s g) ∧
      nptGuardProtectDynamic (guestWith 0x41) s g.state 0x3000000 8 false (ascii "sys_call_table") = some (ok, gs) ∧
      gs.cleanSyscallTable ≠ g.state.cleanSyscallTable ∧
      ∀ allowPatch auth, pollReports (guestWith 0x41) s gs allowPatch auth gs.guardRegions.regions = ([], auth) := by
  obtain ⟨s, g, harm, -, hchange⟩ := guest_arms
  obtain ⟨⟨ok, gs⟩, hcall, hfacts⟩ := (Option.any_eq_true _ _).mp hchange
  obtain ⟨hroom, hread, hchanged, hnames⟩ := of_decide_eq_true hfacts
  have hlen := length_snapshot List.length_replicate harm
  have htable := register_snapshot hlen hcall ⟨by decide, hroom⟩ (by decide +kernel) hread
  exact ⟨s, g, ok, gs, harm, hcall, fun heq => hchanged (by rw [heq]), pollReports_silent htable hnames⟩

end SentinelStack.Vmi
