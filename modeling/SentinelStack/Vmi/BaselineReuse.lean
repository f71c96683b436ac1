import SentinelStack.Vmi.PrivilegeBaseline

/- Privilege baselines and the processes they come from
   (`task_walker_detect_privilege_escalation` in `task_walker.c`).

   A baseline is kept under its pid; the start time of the process, which
   `task_walker_read_process` reads, is not kept. Over any number of calls, also
   more than the generation counter counts, the table holds for a pid what the last
   process with the pid stored, or nothing (`tracks_tableAt`), so a process is
   compared with that one (`signalsAt_processed`). Main result:
   `escalation_one_process_iff` — the alerts of a run each compare a process with
   itself if and only if no process that has taken over a pid, and is compared with
   its former owner, has a privilege that one did not have, unless its name is on
   the list. `pid_reuse` is the run where it has: two processes, no escalation, and
   an alert. -/
namespace SentinelStack.Vmi
open SentinelStack.Lib

/-! The process a comparison is with. -/

/-- The processes that the calls, and then `pre` of the next one, have processed, in order. -/
def processedBefore (calls : List (Option Snapshot)) (pre : List VmiProcess) : List VmiProcess :=
  (calls.flatMap fun call => (call.map (·.val)).getD []) ++ pre |>.filter (·.Processed)

/-- The last of them with the pid. -/
def lastWithPid (history : List VmiProcess) (pid : U32) : Option VmiProcess := history.reverse.find? (·.pid = pid)

/-- The pid has an entry that an earlier scan or this one has stored. -/
def HasBaseline (t : BaselineTable) (pid : U32) : Prop := ∃ i, findBaseline t pid = some i ∧ (t i).generation ≠ 0

instance (t : BaselineTable) (pid : U32) : Decidable (HasBaseline t pid) :=
  match h : findBaseline t pid with
  | none => isFalse (by rintro ⟨i, hi, -⟩; rw [h] at hi; cases hi)
  | some i =>
    decidable_of_iff ((t i).generation ≠ 0)
      ⟨fun hne => ⟨i, h, hne⟩, by rintro ⟨j, hj, hne⟩; rw [h] at hj; cases hj; exact hne⟩

/-- The process whose privileges the next call compares those of `proc` with. -/
def comparedWith (calls : List (Option Snapshot)) (pre : List VmiProcess) (proc : VmiProcess) : Option VmiProcess :=
  if HasBaseline (tableAt calls pre) proc.pid then lastWithPid (processedBefore calls pre) proc.pid else none

/-! The table tracks what was stored last. -/

/-- What the last process with the pid stored, of what is compared. -/
def lastStored (history : List VmiProcess) (pid : U32) : Option (U32 × U64) :=
  (lastWithPid history pid).map fun proc => (proc.euid, proc.capEffective)

theorem lastWithPid_some {history : List VmiProcess} {pid : U32} {proc : VmiProcess}
    (h : lastWithPid history pid = some proc) : proc.pid = pid := by
  rw [lastWithPid] at h
  have hfound := List.find?_some h
  exact of_decide_eq_true hfound

/-- One more process is the last with its pid. -/
theorem lastStored_snoc (history : List VmiProcess) (proc : VmiProcess) :
    lastStored (history ++ [proc]) =
      Function.update (lastStored history) proc.pid (some (proc.euid, proc.capEffective)) := by
  funext pid
  rw [lastStored, lastWithPid, List.reverse_append, List.reverse_singleton, List.singleton_append, List.find?_cons]
  by_cases hpid : proc.pid = pid
  · subst hpid
    rw [decide_eq_true rfl, Function.update_self]
    rfl
  · rw [decide_eq_false hpid, Function.update_of_ne (Ne.symm hpid)]
    rfl

theorem tracks_step {t : BaselineTable} {history : List VmiProcess}
    (h : (stampedOf t).Tracks (lastStored (history.filter (·.Processed)))) (generation : U32) (proc : VmiProcess) :
    (stampedOf (checkProcess generation t proc).1).Tracks
      (lastStored ((history ++ [proc]).filter (·.Processed))) := by
  rw [List.filter_append]
  by_cases hproc : proc.Processed
  · obtain ⟨i, hslot, hput⟩ := checkProcess_put generation t hproc
    rw [List.filter_singleton, decide_eq_true hproc, cond_true, lastStored_snoc, hput]
    exact h.put _ hslot
  · rw [checkProcess_skipped generation t hproc, List.filter_singleton, decide_eq_false hproc, cond_false,
      List.append_nil]
    exact h

theorem tracks_scan {t : BaselineTable} {history : List VmiProcess}
    (h : (stampedOf t).Tracks (lastStored (history.filter (·.Processed)))) (generation : U32)
    (procs : List VmiProcess) :
    (stampedOf (tableAfter generation t procs)).Tracks (lastStored ((history ++ procs).filter (·.Processed))) := by
  induction procs generalizing t history with
  | nil =>
    rw [List.append_nil]
    exact h
  | cons proc rest ih =>
    have hrest := ih (tracks_step h generation proc)
    rw [List.append_assoc] at hrest
    exact hrest

theorem tracks_privilegeRun (calls : List (Option Snapshot)) :
    (stampedOf (privilegeRun calls).privilegeBaseline).Tracks (lastStored (processedBefore calls [])) := by
  induction calls using List.reverseRecOn with
  | nil => exact StampedTable.tracks_empty _
  | append_singleton calls call ih =>
    rw [processedBefore, List.append_nil] at ih
    rw [processedBefore, List.append_nil, List.flatMap_append, List.flatMap_singleton, privilegeRun, run_snoc]
    cases call with
    | none =>
      rw [Option.map_none, Option.getD_none, List.append_nil]
      exact ih
    | some snapshot => exact tracks_scan ih _ snapshot.val

/-- **The table holds what was stored last**, at every point of every run. -/
theorem tracks_tableAt (calls : List (Option Snapshot)) (pre : List VmiProcess) :
    (stampedOf (tableAt calls pre)).Tracks (lastStored (processedBefore calls pre)) := by
  have hrun := tracks_privilegeRun calls
  rw [processedBefore, List.append_nil] at hrun
  exact tracks_scan hrun _ pre

/-- An entry with the pid holds what the last process with the pid stored. -/
theorem find_last {calls : List (Option Snapshot)} {pre : List VmiProcess} {pid : U32} {i : Fin maxPrivBaseline}
    (hfind : findBaseline (tableAt calls pre) pid = some i) :
    ∃ old, lastWithPid (processedBefore calls pre) pid = some old ∧ old.euid = (tableAt calls pre i).euid ∧
      old.capEffective = (tableAt calls pre i).capEffective := by
  obtain ⟨hused, hpid⟩ := findBaseline_some hfind
  have hvalue := (tracks_tableAt calls pre).value_eq i _ (stampedOf_some.mpr ⟨hused, rfl⟩)
  rw [hpid] at hvalue
  obtain ⟨old, hold, heq⟩ := Option.map_eq_some_iff.mp hvalue
  obtain ⟨heuid, hcaps⟩ := Prod.mk.inj heq
  exact ⟨old, hold, heuid, hcaps⟩

/-- **What a process is compared with**: the last process before it with its pid, if the table
    still has that one's entry. -/
theorem signalsAt_processed (calls : List (Option Snapshot)) (pre : List VmiProcess) {proc : VmiProcess}
    (hproc : proc.Processed) :
    signalsAt calls pre proc =
      match comparedWith calls pre proc with
      | none => []
      | some old => comparePrivileges old.euid old.capEffective proc := by
  rw [signalsAt, comparedWith]
  rcases baselineFor_cases (tableAt calls pre) proc.pid with ⟨i, hfind, hslot, -, -⟩ | ⟨habsent, i, hslot, -⟩
  · obtain ⟨old, hold, heuid, hcaps⟩ := find_last hfind
    by_cases hgeneration : (tableAt calls pre i).generation = 0
    · -- stored when the counter had wrapped to 0
      have hnone : ¬ HasBaseline (tableAt calls pre) proc.pid := by
        rintro ⟨j, hj, hne⟩
        rw [hfind] at hj
        cases hj
        exact hne hgeneration
      rw [if_neg hnone, checkProcess, if_pos hproc, hslot]
      exact if_neg (not_not_intro hgeneration)
    · rw [checkProcess_compares _ hproc hslot hgeneration, if_pos ⟨i, hfind, hgeneration⟩, hold, ← heuid, ← hcaps]
  · have hnone : ¬ HasBaseline (tableAt calls pre) proc.pid := by
      rintro ⟨j, hj, -⟩
      obtain ⟨hused, hpid⟩ := findBaseline_some hj
      exact habsent j hused hpid
    have hnew : (Function.update (tableAt calls pre) i { pid := proc.pid, used := true } i).generation = 0 := by
      rw [Function.update_self]
    rw [if_neg hnone, checkProcess, if_pos hproc, hslot]
    exact if_neg (not_not_intro hnew)

theorem signalsAt_skipped (calls : List (Option Snapshot)) (pre : List VmiProcess) {proc : VmiProcess}
    (hproc : ¬ proc.Processed) : signalsAt calls pre proc = [] := by
  rw [signalsAt, checkProcess_skipped _ _ hproc]

theorem signalsAt_eq (calls : List (Option Snapshot)) (pre : List VmiProcess) (proc : VmiProcess) :
    signalsAt calls pre proc =
      match comparedWith calls pre proc with
      | none => []
      | some old => if proc.Processed then comparePrivileges old.euid old.capEffective proc else [] := by
  by_cases hproc : proc.Processed
  · rw [signalsAt_processed calls pre hproc]
    simp only [if_pos hproc]
  · rw [signalsAt_skipped calls pre hproc]
    cases comparedWith calls pre proc with
    | none => rfl
    | some old => exact (if_neg hproc).symm

/-! Alerts over runs. -/

/-- At every process of every snapshot of the run: the calls before it, the processes before it in
    its scan, and the process. -/
def EachProcess (calls : List (Option Snapshot))
    (P : List (Option Snapshot) → List VmiProcess → VmiProcess → Prop) : Prop :=
  ∀ before snapshot after, calls = before ++ some snapshot :: after →
    ∀ pre proc post, (snapshot : Snapshot).val = pre ++ proc :: post → P before pre proc

/-- An alert compares a process with itself. -/
def SignalsOneProcess (before : List (Option Snapshot)) (pre : List VmiProcess) (proc : VmiProcess) : Prop :=
  signalsAt before pre proc ≠ [] →
    ∃ old, comparedWith before pre proc = some old ∧ old.pid = proc.pid ∧ old.startTime = proc.startTime

/-- What the process has that `old` had not: root, or a capability. -/
def Gains (old proc : VmiProcess) : Prop :=
  old.euid ≠ 0 ∧ proc.euid = 0 ∨ ∃ k, proc.capEffective.getLsbD k = true ∧ old.capEffective.getLsbD k = false

/-- A process that is compared with another one, which had its pid before, gains nothing by it. -/
def ReuseGainsNothing (before : List (Option Snapshot)) (pre : List VmiProcess) (proc : VmiProcess) : Prop :=
  ∀ old, proc.Processed → comparedWith before pre proc = some old → old.startTime ≠ proc.startTime →
    isLegitimatePrivTransition proc ∨ ¬ Gains old proc

theorem comparedWith_pid {calls : List (Option Snapshot)} {pre : List VmiProcess} {proc old : VmiProcess}
    (h : comparedWith calls pre proc = some old) : old.pid = proc.pid := by
  rw [comparedWith] at h
  split at h
  · exact lastWithPid_some h
  · cases h

theorem signalsOneProcess_iff (before : List (Option Snapshot)) (pre : List VmiProcess) (proc : VmiProcess) :
    SignalsOneProcess before pre proc ↔ ReuseGainsNothing before pre proc := by
  by_cases hproc : proc.Processed
  · rw [SignalsOneProcess, signalsAt_processed before pre hproc, ReuseGainsNothing]
    cases hold : comparedWith before pre proc with
    | none => simp
    | some old =>
      dsimp only
      rw [comparePrivileges_ne_nil]
      constructor
      · intro hsame old' _ hold' hother
        cases hold'
        by_contra hgain
        rw [not_or, not_not] at hgain
        obtain ⟨_, heq, -, hstart⟩ := hsame hgain
        cases heq
        exact hother hstart
      · rintro hreuse ⟨hlisted, hgains⟩
        refine ⟨old, rfl, comparedWith_pid hold, ?_⟩
        by_contra hother
        exact (hreuse old hproc rfl hother).elim hlisted (not_not_intro hgains)
  · refine iff_of_true (fun hne => absurd (signalsAt_skipped before pre hproc) hne) ?_
    intro old hprocessed
    exact absurd hprocessed hproc

/-- **Escalation alerts and pid reuse.** -/
theorem escalation_one_process_iff (calls : List (Option Snapshot)) :
    EachProcess calls (fun before pre proc => signalsAt before pre proc =
        match comparedWith before pre proc with
        | none => []
        | some old => if proc.Processed then comparePrivileges old.euid old.capEffective proc else []) ∧
      (EachProcess calls SignalsOneProcess ↔ EachProcess calls ReuseGainsNothing) := by
  constructor
  · intro before _ _ _ pre proc _ _
    exact signalsAt_eq before pre proc
  · have hiff : SignalsOneProcess = ReuseGainsNothing := by
      funext before pre proc
      exact propext (signalsOneProcess_iff before pre proc)
    rw [hiff]

/-- A shell that started at 100. -/
def formerShell : VmiProcess := { shellAs 1000 with startTime := 100 }

/-- Another one with its pid, which root started at 200. -/
def laterShell : VmiProcess := { shellAs 0 with startTime := 200 }

def formerScan : Snapshot := ⟨[formerShell], by decide⟩
def laterScan : Snapshot := ⟨[laterShell], by decide⟩

theorem comparedWith_former : comparedWith [some formerScan] [] laterShell = some formerShell := by
  have hsplit : formerScan.val = [] ++ formerShell :: [] := rfl
  obtain ⟨hgeneration, hstored⟩ := stored_in_scan [] (by decide) hsplit (by decide) (by simp)
  rw [List.nil_append] at hgeneration hstored
  obtain ⟨-, hscan⟩ := inScan_privilegeRun [some formerScan] (by decide)
  obtain ⟨i, hfind, -, hstamp, -⟩ := find_of_holds hscan hstored
  have hbaseline : HasBaseline (tableAt [some formerScan] []) laterShell.pid := by
    rw [tableAt, tableAfter, run_nil]
    refine ⟨i, hfind, ?_⟩
    intro hzero
    rw [hzero] at hstamp
    exact hgeneration hstamp.symm
  rw [comparedWith, if_pos hbaseline]
  rfl

/-- **An alert for no escalation.** The first shell exits, its pid goes to a process of root, and
    that one is reported as a shell that has become root. -/
theorem pid_reuse :
    signalsAt [some formerScan] [] laterShell = [signalFor (ascii "priv_escalation") laterShell] ∧
      comparedWith [some formerScan] [] laterShell = some formerShell ∧
      formerShell.startTime ≠ laterShell.startTime ∧
      ¬ EachProcess [some formerScan, some laterScan] SignalsOneProcess := by
  have hsignals : signalsAt [some formerScan] [] laterShell = [signalFor (ascii "priv_escalation") laterShell] := by
    rw [signalsAt_processed _ _ (by decide), comparedWith_former]
    decide +kernel
  refine ⟨hsignals, comparedWith_former, by decide, ?_⟩
  intro heach
  have halert : signalsAt [some formerScan] [] laterShell ≠ [] := by
    rw [hsignals]
    simp
  obtain ⟨old, hold, -, hstart⟩ := heach [some formerScan] laterScan [] rfl [] laterShell [] rfl halert
  rw [comparedWith_former] at hold
  cases hold
  exact absurd hstart (by decide)

end SentinelStack.Vmi
