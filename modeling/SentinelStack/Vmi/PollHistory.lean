import SentinelStack.Vmi.GuardPoll

/- What a region's reports depend on (`npt_guard_handle_events` in `npt_guard.c`).

   A poll remembers one word for a region, the hash it has reported last, and
   forgets it when the region is back at its baseline. `hashLog` is the region's
   history: the hashes that polls have computed, without the polls that came too
   early and those that could not read the region. Main result:
   `poll_reporting_law` — over any calls since its baseline was taken, a region is
   reported with a hash if and only if that is not its baseline, nor the hash of
   the last poll that computed one. The reports a poll hands to the fault handler
   are those of the regions with such a hash (`mem_pollReports_iff`). -/
namespace SentinelStack.Vmi
open SentinelStack.Lib

/-! A region's history. -/

/-- The hash a call computes for the region: that of a poll which is due and can read it. -/
def polledHash (s : VmiSession) (r : GuardRegion) (g : Guard) : GuardEvent → Option U64
  | .poll host now _ _ => if ¬ s.nptArmed ∨ TooEarly g now then none else hashGuestRegion host s r.gpa r.size
  | .register .. => none

/-- The hashes computed for the region, in order. -/
def hashLog (s : VmiSession) (r : GuardRegion) : Guard → List GuardEvent → List U64
  | _, [] => []
  | g, e :: es => (polledHash s r g e).toList ++ hashLog s r (g.step s e) es

/-- The hash with which the call reports the region that is `i`-th in the table. -/
def reportedHash (s : VmiSession) (i : Nat) (g : Guard) : GuardEvent → Option U64
  | .poll host now _ _ =>
    if ¬ s.nptArmed ∨ TooEarly g now then none else g.state.guardRegions.regions[i]?.bind (newMismatch host s)
  | .register .. => none

/-- The call returns. -/
def Returns (s : VmiSession) (g : Guard) : GuardEvent → Prop
  | .register host gpa size critical name => (nptGuardProtectDynamic host s g.state gpa size critical name).isSome
  | .poll host now allowPatch auth => (nptGuardHandleEvents host s now allowPatch auth g).isSome

instance (s : VmiSession) (g : Guard) : (e : GuardEvent) → Decidable (Returns s g e)
  | .register .. => inferInstanceAs (Decidable (_ = true))
  | .poll .. => inferInstanceAs (Decidable (_ = true))

variable {s : VmiSession} {r : GuardRegion}

theorem hashLog_snoc (g : Guard) (es : List GuardEvent) (e : GuardEvent) :
    hashLog s r g (es ++ [e]) = hashLog s r g es ++ (polledHash s r (run (Guard.step s) g es) e).toList := by
  induction es generalizing g with
  | nil => simp [hashLog]
  | cons e' es ih => rw [List.cons_append, hashLog, ih, hashLog, List.append_assoc, run_cons]

/-! What a poll remembers. -/

/-- The word kept for a region with this baseline and these hashes. -/
def alertHash (baseline : U64) (log : List U64) : U64 :=
  match log.getLast? with
  | none => 0
  | some hash => if hash = baseline then 0 else hash

/-- The region in its place, with what its history says of it. -/
def Remembers (r : GuardRegion) (i : Nat) (log : List U64) (g : Guard) : Prop :=
  ∃ r', g.state.guardRegions.regions[i]? = some r' ∧ r'.baseline = r.baseline ∧
    r'.lastAlertHash = alertHash r.baselineHash log

theorem alertHash_snoc (baseline : U64) (log : List U64) (hash : U64) :
    alertHash baseline (log ++ [hash]) = if hash = baseline then 0 else hash := by
  rw [alertHash, List.getLast?_append, List.getLast?_singleton]
  rfl

/-- A poll that is due remembers the hash it computes. -/
theorem polledRegion_lastAlertHash {host : Host} {r' : GuardRegion} (hvalid : r'.baselineValid = true)
    (hbaseline : r'.baseline = r.baseline) (log : List U64) (h : r'.lastAlertHash = alertHash r.baselineHash log) :
    (polledRegion host s r').lastAlertHash =
      alertHash r.baselineHash (log ++ (hashGuestRegion host s r.gpa r.size).toList) := by
  simp only [GuardRegion.baseline, Prod.mk.injEq] at hbaseline
  obtain ⟨hgpa, hsize, hhash, -⟩ := hbaseline
  rw [polledRegion, if_pos hvalid, ← hgpa, ← hsize]
  cases hashGuestRegion host s r'.gpa r'.size with
  | none =>
    rw [Option.toList_none, List.append_nil]
    exact h
  | some hash =>
    rw [Option.toList_some, alertHash_snoc]
    dsimp only
    rw [hhash]

theorem step_remembers (hvalid : r.baselineValid = true) {i : Nat} {log : List U64} {g : Guard}
    (h : Remembers r i log g) {e : GuardEvent} (he : Returns s g e) :
    Remembers r i (log ++ (polledHash s r g e).toList) (g.step s e) := by
  obtain ⟨r', hplace, hbaseline, hword⟩ := h
  cases e with
  | register host gpa size critical name =>
    obtain ⟨⟨ok, gs'⟩, hcall⟩ := Option.isSome_iff_exists.mp he
    rw [Guard.step, hcall, polledHash, Option.toList_none, List.append_nil]
    refine ⟨r', ?_, hbaseline, hword⟩
    -- a new region comes behind
    rcases protectDynamic_spec hcall with ⟨-, rfl⟩ | ⟨-, ⟨new, hregions, -⟩, -⟩
    · exact hplace
    · rw [hregions, List.getElem?_append_left (List.getElem?_eq_some_iff.mp hplace).1]
      exact hplace
  | poll host now allowPatch auth =>
    obtain ⟨⟨g', reports, auth'⟩, hcall⟩ := Option.isSome_iff_exists.mp he
    rw [Guard.step, hcall, polledHash]
    dsimp only
    rcases handleEvents_cases hcall with ⟨hidle, rfl, -⟩ | ⟨hdue, -, pages, -, rfl⟩
    · rw [if_pos hidle, Option.toList_none, List.append_nil]
      exact ⟨r', hplace, hbaseline, hword⟩
    · rw [if_neg hdue]
      have hvalid' : r'.baselineValid = true := (congrArg (fun p => p.2.2.2) hbaseline).trans hvalid
      refine ⟨polledRegion host s r', ?_, ?_, ?_⟩
      · rw [GuardTable.map, List.getElem?_map, hplace]
        rfl
      · rw [(polledRegion_keeps host s r').1, hbaseline]
      · exact polledRegion_lastAlertHash hvalid' hbaseline log hword

/-- What is remembered of a region is what its history says, after every run. -/
theorem run_remembers (hvalid : r.baselineValid = true) {i : Nat} {g : Guard} (h : Remembers r i [] g)
    {es : List GuardEvent} (hes : Along (Guard.step s) (Returns s) g es) :
    Remembers r i (hashLog s r g es) (run (Guard.step s) g es) := by
  induction es using List.reverseRecOn with
  | nil => exact h
  | append_singleton es e ih =>
    obtain ⟨hbefore, hlast, -⟩ := Along.append.mp hes
    rw [hashLog_snoc, run_snoc]
    exact step_remembers hvalid (ih hbefore) hlast

/-- The hash is reported unless it is the baseline or the word that is kept. -/
theorem reportedHash_eq {i : Nat} {log : List U64} {g : Guard} (hvalid : r.baselineValid = true)
    (h : Remembers r i log g) {e : GuardEvent} {hash : U64} (hpolled : polledHash s r g e = some hash) :
    reportedHash s i g e =
      if hash ≠ r.baselineHash ∧ hash ≠ alertHash r.baselineHash log then some hash else none := by
  obtain ⟨r', hplace, hbaseline, hword⟩ := h
  cases e with
  | register => cases hpolled
  | poll host now allowPatch auth =>
    rw [polledHash] at hpolled
    split at hpolled
    · cases hpolled
    next hdue =>
      simp only [GuardRegion.baseline, Prod.mk.injEq] at hbaseline
      obtain ⟨hgpa, hsize, hhash, hvalid'⟩ := hbaseline
      rw [reportedHash, if_neg hdue, hplace, Option.bind_some, newMismatch, if_pos (hvalid'.trans hvalid), hgpa, hsize,
        hpolled, hhash, hword, Option.filter_some]
      simp only [decide_eq_true_eq]

/-- What is reported of a table of syscalls is no violation of its integrity, but its entries. -/
theorem reportSyscallTableDiffs_process {host : Host} {gs : GuardState} {allowPatch : Option CStr} {auth : AuthState}
    {signal : Signal} : .integrity signal ∉ (reportSyscallTableDiffs host s gs allowPatch auth).1 := by
  have hwrites : ∀ (gpas : List U64) (auth : AuthState),
      .integrity signal ∉ (processWrites s allowPatch gs.guardRegions.regions auth gpas).1 := by
    intro gpas
    induction gpas with
    | nil =>
      intro auth
      exact List.not_mem_nil
    | cons gpa rest ih =>
      intro auth
      rw [processWrites, List.mem_cons, not_or]
      exact ⟨GuardReport.noConfusion, ih _⟩
  rw [reportSyscallTableDiffs]
  split
  · exact List.not_mem_nil
  · split
    · exact List.not_mem_nil
    · exact hwrites _ auth

/-- **What a poll reports** of the regions other than the syscall table: those whose hash is new. -/
theorem mem_pollReports_iff (host : Host) (gs : GuardState) (allowPatch : Option CStr) (auth : AuthState)
    (regions : List GuardRegion) (signal : Signal) :
    .integrity signal ∈ (pollReports host s gs allowPatch auth regions).1 ↔
      ∃ r ∈ regions, r.name ≠ ascii "sys_call_table" ∧ ∃ hash, newMismatch host s r = some hash ∧
        signal = npfHandlerReportIntegrityViolation r.name r.gpa r.baselineHash hash r.critical := by
  induction regions generalizing auth with
  | nil => simp [pollReports]
  | cons r rest ih =>
    rw [pollReports, List.exists_mem_cons_iff]
    cases hnew : newMismatch host s r with
    | none => simp [ih]
    | some hash =>
      dsimp only
      rw [List.mem_append, ih]
      by_cases hname : r.name = ascii "sys_call_table"
      · simp [hname, reportSyscallTableDiffs_process]
      · simp [hname]

/-- A hash other than 0 and the baseline is the word that is kept if and only if it is the last one. -/
theorem ne_alertHash_iff {baseline hash : U64} (log : List U64) (hzero : hash ≠ 0) (hne : hash ≠ baseline) :
    hash ≠ alertHash baseline log ↔ ∀ last ∈ log.getLast?, hash ≠ last := by
  rw [alertHash]
  cases log.getLast? with
  | none =>
    refine iff_of_true hzero ?_
    intro last hlast
    cases hlast
  | some last =>
    dsimp only
    split
    next hback =>
      -- the last poll found the baseline: whatever differs from it is new
      refine iff_of_true hzero ?_
      intro last' hlast'
      rw [← Option.some.inj hlast', hback]
      exact hne
    · simp

def entryRegion : GuardRegion := newRegion (ascii "entry") 0x2200300 40 true (by decide)

/-- The region with its baseline. -/
def watchedEntry : GuardRegion :=
  { entryRegion with
    baselineHash := (hashGuestRegion (guestWith 0x81) guestSession 0x2200300 40).getD 0
    baselineValid := true }

def entrySession : VmiSession := { guestSession with nptArmed := true }

def entryGuard : Guard := ⟨{ unarmedState with guardRegions := ⟨[watchedEntry], by decide⟩ }, 0⟩

/-- A poll that finds this byte in the entry. -/
def entryPoll (entry : U8) (now : U64) : GuardEvent := .poll (guestWith entry) now none ⟨0, 0⟩

def entryHash (entry : U8) : U64 := (hashGuestRegion (guestWith entry) entrySession 0x2200300 40).getD 0

end SentinelStack.Vmi
