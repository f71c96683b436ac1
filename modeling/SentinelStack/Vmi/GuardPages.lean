import SentinelStack.Vmi.GuardPoll

/- The table and the pages (`npt_guard.c`): what a registration leaves in the table,
   and which pages the guard has asked to be read-only.

   `npt_guard_protect_dynamic` appends the region, then takes its baseline, then
   protects its pages, and returns from each step. Main results:

   * `failed_registration_iff` — a registration that fails changes nothing if and
     only if it was refused before the region was appended; any other leaves a
     region without a baseline, and as many of them as there is room fill the table
     (`failed_registrations_fill`).
   * `bounds_iff_protected` — from arming on, over any registrations that succeed
     and any polls, `npt_guard_check_bounds` knows an address if and only if
     `set_page_readonly` was called on its page. -/
namespace SentinelStack.Vmi
open SentinelStack.Lib

/-! Registrations that fail. -/

/-- **A failed registration**, and when it has no effect. -/
theorem failed_registration_iff (host : Host) (s : VmiSession) (gs gs' : GuardState) (gpa size : U64) (critical : Bool)
    (name : CStr) (h : nptGuardProtectDynamic host s gs gpa size critical name = some (false, gs')) :
    (gs'.guardRegions.regions = gs.guardRegions.regions ∧ gs'.snapshot = gs.snapshot ↔ ¬ Enters gs size) ∧
      (Enters gs size → ∃ r, gs'.guardRegions.regions = gs.guardRegions.regions ++ [r] ∧ r.baselineValid = false) := by
  rcases protectDynamic_cases h with ⟨hrefused, -, rfl⟩ | ⟨henters, ⟨-, -, rfl⟩ | ⟨_, _, -, hok, -⟩⟩
  · exact ⟨iff_of_true ⟨rfl, rfl⟩ hrefused, fun henters => absurd henters hrefused⟩
  · refine ⟨iff_of_false ?_ (not_not_intro henters), fun _ => ⟨_, rfl, rfl⟩⟩
    rintro ⟨hregions, -⟩
    have hlen := congrArg List.length hregions
    rw [GuardTable.push, List.length_append, List.length_singleton] at hlen
    omega
  · cases hok

theorem failed_registration_iff_no_size :
    ¬ Enters unarmedState 0 ∧ ∃ gs',
      nptGuardProtectDynamic (guestWith 0x81) guestSession unarmedState 0x3000000 0 false (ascii "map") =
          some (false, gs') ∧
        gs'.guardRegions.regions = unarmedState.guardRegions.regions ∧ gs'.snapshot = unarmedState.snapshot := by
  have hrefused : ¬ Enters unarmedState 0 := fun henters => henters.1 rfl
  have hcall : nptGuardProtectDynamic (guestWith 0x81) guestSession unarmedState 0x3000000 0 false (ascii "map") =
      some (false, unarmedState) := dif_pos (Or.inl rfl)
  obtain ⟨hiff, -⟩ := failed_registration_iff _ _ _ _ _ _ _ _ hcall
  exact ⟨hrefused, unarmedState, hcall, hiff.mpr hrefused⟩

/-- The registration enters the table, and fails. -/
def FailsInside (s : VmiSession) (g : Guard) : GuardEvent → Prop
  | .register host gpa size critical name =>
    Enters g.state size ∧ ∃ gs', nptGuardProtectDynamic host s g.state gpa size critical name = some (false, gs')
  | .poll .. => False

theorem failed_registrations_fill (s : VmiSession) (g : Guard) (es : List GuardEvent)
    (h : Along (Guard.step s) (FailsInside s) g es) :
    (run (Guard.step s) g es).state.guardRegions.regions.length = g.state.guardRegions.regions.length + es.length := by
  induction es generalizing g with
  | nil => rfl
  | cons e es ih =>
    obtain ⟨hfails, hrest⟩ := h
    rw [run_cons, ih _ hrest, List.length_cons]
    cases e with
    | poll host now allowPatch auth => exact hfails.elim
    | register host gpa size critical name =>
      obtain ⟨henters, gs', hcall⟩ := hfails
      rcases protectDynamic_cases hcall with ⟨hrefused, -⟩ | ⟨_, ⟨-, -, rfl⟩ | ⟨_, _, -, hok, -⟩⟩
      · exact absurd henters hrefused
      · rw [Guard.step, hcall]
        dsimp only
        rw [GuardTable.push, List.length_append, List.length_singleton]
        omega
      · cases hok

def unreadableRegion : GuardEvent := .register (guestWith 0x81) 0x5000000 8 false (ascii "map")

/-- **A failed registration stays in the table**, and sixteen of them leave no room for a region
    that could be registered before. -/
theorem failed_registration_stays :
    ((nptGuardProtectDynamic (guestWith 0x81) guestSession unarmedState 0x5000000 8 false (ascii "map")).any fun r =>
        r.1 = false ∧ unarmedState.guardRegions.regions.length = 0 ∧ r.2.guardRegions.regions.length = 1) = true ∧
      ((nptGuardProtectDynamic (guestWith 0x81) guestSession unarmedState 0x3000000 8 false (ascii "map")).map (·.1)) =
        some true ∧
      ((nptGuardProtectDynamic (guestWith 0x81) guestSession
        (run (Guard.step guestSession) ⟨unarmedState, 0⟩ (List.replicate 16 unreadableRegion)).state
        0x3000000 8 false (ascii "map")).map (·.1)) = some false := by
  decide +kernel

/-! The pages of the regions. -/

theorem flatten_of_mapM {α β : Type} {f : α → Option (List β)} {l : List α} {results : List (List β)}
    (h : l.mapM f = some results) : results.flatten = l.flatMap fun a => (f a).getD [] := by
  induction l generalizing results with
  | nil =>
    cases h
    rfl
  | cons a l ih =>
    simp only [List.mapM_cons, Option.bind_eq_bind, Option.bind_eq_some_iff, Option.pure_def, Option.some.injEq] at h
    obtain ⟨first, hfirst, rest, hrest, rfl⟩ := h
    rw [List.flatten_cons, List.flatMap_cons, ih hrest, hfirst, Option.getD_some]

/-- The page is one of those the loop over the region protects. -/
def GuardRegion.Protects (r : GuardRegion) (page : U64) : Prop := page ∈ (regionPages r).getD []

theorem protects_congr {r r' : GuardRegion} (h : r'.baseline = r.baseline) (page : U64) :
    r'.Protects page ↔ r.Protects page := by
  rw [GuardRegion.Protects, GuardRegion.Protects, regionPages_congr h]

/-- The loop over a region protects the pages it has bytes on. -/
theorem protects_page_iff {r : GuardRegion} (hseen : r.Seen) (hends : (regionPages r).isSome) (a : U64) :
    (∃ page, r.Protects page ∧ page.toNat / 2 ^ pageShift = a.toNat / 2 ^ pageShift) ↔ r.OnPage a := by
  have hpos := r.size_pos
  have hlt : r.gpa < r.gpa + r.size := by
    rw [BitVec.lt_def, hseen.end_toNat]
    omega
  obtain ⟨pages, hpages⟩ := Option.isSome_iff_exists.mp hends
  simp only [GuardRegion.Protects, hpages, Option.getD_some]
  unfold regionPages at hpages
  split at hpages
  next visited hloop =>
    cases hpages
    have hpageSize : vmiPageSize = 2 ^ pageShift := rfl
    rw [hpageSize] at hloop
    have htouches := stepLoop_touches_iff (k := pageShift) (by decide) (2 ^ (64 - pageShift)) hlt (by rw [hloop])
      a.toNat
    rw [hloop, hseen.end_toNat] at htouches
    exact htouches
  · cases hpages

/-- Since the log was `before`, the pages protected are those of the regions. -/
structure Guard.PagesProtected (before : List U64) (g : Guard) : Prop where
  ended : ∀ r ∈ g.state.guardRegions.regions, (regionPages r).isSome
  pages : ∃ pages, g.state.readonlyPages = before ++ pages ∧
    ∀ page, page ∈ pages ↔ ∃ r ∈ g.state.guardRegions.regions, r.Protects page

/-- A registration succeeds; a poll may do anything. -/
def Registers (s : VmiSession) (g : Guard) : GuardEvent → Prop
  | .register host gpa size critical name =>
    ∃ gs', nptGuardProtectDynamic host s g.state gpa size critical name = some (true, gs')
  | .poll .. => True

theorem arm_pagesProtected {host : Host} {env : CStr → Option U64} {s₀ s : VmiSession} {gs : GuardState} {g : Guard}
    (h : nptGuardArm host env s₀ gs = some (.armed s g)) :
    s.nptArmed = true ∧ g.PagesProtected gs.readonlyPages := by
  rcases nptGuardArm_cases h with ⟨_, _, heq, -⟩ | ⟨gpa, extra, -, ⟨-, _, heq, -⟩ | ⟨-, g', heq, -, -, pages, hpages, hlog⟩⟩
  · cases heq
  · cases heq
  · obtain ⟨rfl, rfl⟩ := ArmResult.armed.inj heq
    refine ⟨rfl, ?_, pages.flatten, hlog, ?_⟩
    · exact fun r hr => mapM_isSome_iff.mp (by rw [hpages]; rfl) r hr
    · intro page
      rw [flatten_of_mapM hpages, List.mem_flatMap]
      rfl

/-- What was protected before, and what the new pages are. -/
theorem Guard.PagesProtected.grow {before : List U64} {g g' : Guard} (h : g.PagesProtected before) (new : List U64)
    (hlog : g'.state.readonlyPages = g.state.readonlyPages ++ new)
    (hended : ∀ r ∈ g'.state.guardRegions.regions, (regionPages r).isSome)
    (hpages : ∀ page, (∃ r ∈ g'.state.guardRegions.regions, r.Protects page) ↔
      (∃ r ∈ g.state.guardRegions.regions, r.Protects page) ∨ page ∈ new) : g'.PagesProtected before := by
  obtain ⟨pages, hold, hmem⟩ := h.pages
  refine ⟨hended, pages ++ new, ?_, ?_⟩
  · rw [hlog, hold, List.append_assoc]
  · intro page
    rw [List.mem_append, hmem, hpages]

theorem register_pagesProtected {host : Host} {s : VmiSession} {before : List U64} {g : Guard} {gs' : GuardState}
    {gpa size : U64} {critical : Bool} {name : CStr} (hs : s.nptArmed = true) (h : g.PagesProtected before)
    (hcall : nptGuardProtectDynamic host s g.state gpa size critical name = some (true, gs')) :
    Guard.PagesProtected before { g with state := gs' } := by
  rcases protectDynamic_cases hcall with ⟨-, hok, -⟩ | ⟨-, ⟨-, hok, -⟩ | ⟨baselined, pages, -, -, hpages, rfl⟩⟩
  · cases hok
  · cases hok
  · rw [if_pos hs] at hpages
    refine h.grow pages ?_ ?_ ?_
    · exact congrArg (· ++ pages) (snapshotGuardRegion_readonlyPages ..)
    · intro r hr
      rcases List.mem_append.mp hr with hr | hr
      · exact h.ended r hr
      · rw [List.mem_singleton.mp hr, hpages]
        rfl
    · intro page
      have hnew : baselined.Protects page ↔ page ∈ pages := by
        rw [GuardRegion.Protects, hpages, Option.getD_some]
      simp only [GuardTable.push, List.mem_append, List.mem_singleton, or_and_right, exists_or, exists_eq_left, hnew]

/-- A poll protects pages of regions of the table again, and no others. -/
theorem poll_pagesProtected {host : Host} {s : VmiSession} {before : List U64} {g g' : Guard} {now : U64}
    {allowPatch : Option CStr} {auth auth' : AuthState} {reports : List GuardReport} (h : g.PagesProtected before)
    (hcall : nptGuardHandleEvents host s now allowPatch auth g = some (g', reports, auth')) :
    g'.PagesProtected before := by
  rcases handleEvents_cases hcall with ⟨-, rfl, -⟩ | ⟨-, -, pages, hpages, rfl⟩
  · exact h
  · have hkeeps := polledRegion_keeps host s
    refine h.grow pages.flatten rfl ?_ ?_
    · intro r hr
      obtain ⟨r', hr', rfl⟩ := List.mem_map.mp hr
      rw [regionPages_congr (hkeeps r').1]
      exact h.ended r' hr'
    · intro page
      rw [flatten_of_mapM hpages]
      constructor
      · rintro ⟨r, hr, hpage⟩
        obtain ⟨r', hr', rfl⟩ := List.mem_map.mp hr
        exact Or.inl ⟨r', hr', (protects_congr (hkeeps r').1 page).mp hpage⟩
      · intro hpage
        have hold : ∃ r ∈ g.state.guardRegions.regions, r.Protects page := by
          rcases hpage with hold | hagain
          · exact hold
          · obtain ⟨r, hr, hpage⟩ := List.mem_flatMap.mp hagain
            exact ⟨r, (List.mem_filter.mp hr).1, hpage⟩
        obtain ⟨r, hr, hpage⟩ := hold
        exact ⟨polledRegion host s r, List.mem_map_of_mem hr, (protects_congr (hkeeps r).1 page).mpr hpage⟩

theorem step_pagesProtected {s : VmiSession} (hs : s.nptArmed = true) {before : List U64} (g : Guard) (e : GuardEvent)
    (h : g.PagesProtected before) (he : Registers s g e) : (g.step s e).PagesProtected before := by
  cases e with
  | register host gpa size critical name =>
    obtain ⟨gs', hcall⟩ := he
    rw [Guard.step, hcall]
    exact register_pagesProtected hs h hcall
  | poll host now allowPatch auth =>
    rw [Guard.step]
    split
    · exact h
    next g' reports auth' hcall => exact poll_pagesProtected h hcall

/-- The scan knows an address on the page of a region, where no region reaches the last page. -/
theorem checkBounds_ne_zero_iff {regions : List GuardRegion} (hseen : ∀ r ∈ regions, r.Seen) (a : U64) :
    (nptGuardCheckBounds a regions).code ≠ 0 ↔ ∃ r ∈ regions, r.OnPage a := by
  have hfits : ∀ r ∈ regions, r.Fits := fun r hr => (hseen r hr).trans (Nat.sub_le _ _)
  rw [checkBounds_eq hfits]
  cases hfirst : firstOnPage regions a with
  | none =>
    refine iff_of_false (not_not_intro rfl) ?_
    rintro ⟨r, hr, hpage⟩
    rw [firstOnPage] at hfirst
    exact List.find?_eq_none.mp hfirst r hr (decide_eq_true ⟨hseen r hr, hpage⟩)
  | some r =>
    rw [firstOnPage] at hfirst
    have hfound := List.find?_some hfirst
    refine iff_of_true ?_ ⟨r, List.mem_of_find?_eq_some hfirst, (of_decide_eq_true hfound).2⟩
    dsimp only
    split
    · exact Nat.one_ne_zero
    · exact Nat.succ_ne_zero 1

/-- **Bounds and pages agree.** -/
theorem bounds_iff_protected (host : Host) (env : CStr → Option U64) (s₀ s : VmiSession) (gs : GuardState) (g : Guard)
    (harm : nptGuardArm host env s₀ gs = some (.armed s g)) (es : List GuardEvent)
    (hes : Along (Guard.step s) (Registers s) g es)
    (hfits : ∀ r ∈ (run (Guard.step s) g es).state.guardRegions.regions, r.gpa.toNat + r.size.toNat + 4095 < 2 ^ 64) :
    ∃ pages, (run (Guard.step s) g es).state.readonlyPages = gs.readonlyPages ++ pages ∧
      ∀ a, (nptGuardCheckBounds a (run (Guard.step s) g es).state.guardRegions.regions).code ≠ 0 ↔
        ∃ page ∈ pages, page.toNat / 4096 = a.toNat / 4096 := by
  obtain ⟨hs, harmed⟩ := arm_pagesProtected harm
  have hrun : (run (Guard.step s) g es).PagesProtected gs.readonlyPages :=
    hes.inv (fun g e hg he => step_pagesProtected hs g e hg he) harmed
  obtain ⟨pages, hlog, hpages⟩ := hrun.pages
  have hseen : ∀ r ∈ (run (Guard.step s) g es).state.guardRegions.regions, r.Seen := by
    intro r hr
    have hfit := hfits r hr
    rw [GuardRegion.Seen, pageShift]
    omega
  refine ⟨pages, hlog, ?_⟩
  intro a
  rw [checkBounds_ne_zero_iff hseen]
  constructor
  · rintro ⟨r, hr, hpage⟩
    obtain ⟨page, hprotects, hsame⟩ := (protects_page_iff (hseen r hr) (hrun.ended r hr) a).mpr hpage
    exact ⟨page, (hpages page).mpr ⟨r, hr, hprotects⟩, hsame⟩
  · rintro ⟨page, hpage, hsame⟩
    obtain ⟨r, hr, hprotects⟩ := (hpages page).mp hpage
    exact ⟨r, hr, (protects_page_iff (hseen r hr) (hrun.ended r hr) a).mp ⟨page, hprotects, hsame⟩⟩

def acrossTwoPages : GuardEvent := .register (guestWith 0x81) 0x3000FF8 16 false (ascii "map")

/-- It succeeds, and no region reaches the last page then. -/
def goesThrough (s : VmiSession) (g : Guard) : Bool :=
  (nptGuardProtectDynamic (guestWith 0x81) s g.state 0x3000FF8 16 false (ascii "map")).any fun r =>
    r.1 ∧ r.2.guardRegions.regions.all fun r => r.gpa.toNat + r.size.toNat + 4095 < 2 ^ 64

theorem bounds_iff_protected_two_pages : ∃ s g,
    nptGuardArm (guestWith 0x81) (fun _ => none) guestSession unarmedState = some (.armed s g) ∧
      ∃ pages, (run (Guard.step s) g [acrossTwoPages]).state.readonlyPages = [] ++ pages ∧
        ∀ a, (nptGuardCheckBounds a (run (Guard.step s) g [acrossTwoPages]).state.guardRegions.regions).code ≠ 0 ↔
          ∃ page ∈ pages, page.toNat / 4096 = a.toNat / 4096 := by
  have hrun : (nptGuardArm (guestWith 0x81) (fun _ => none) guestSession unarmedState).any
      (·.armedWith goesThrough) = true := by decide +kernel
  obtain ⟨s, g, harm, htest⟩ := exists_armed hrun
  obtain ⟨⟨ok, gs'⟩, hcall, hfacts⟩ := (Option.any_eq_true _ _).mp htest
  obtain ⟨hok, hfits⟩ := of_decide_eq_true hfacts
  cases hok
  refine ⟨s, g, harm, bounds_iff_protected _ _ _ s _ g harm [acrossTwoPages] ⟨⟨gs', hcall⟩, trivial⟩ ?_⟩
  intro r hr
  rw [run_cons, run_nil, acrossTwoPages, Guard.step, hcall] at hr
  exact of_decide_eq_true (List.all_eq_true.mp hfits r hr)

end SentinelStack.Vmi
