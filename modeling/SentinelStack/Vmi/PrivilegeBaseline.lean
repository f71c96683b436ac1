import SentinelStack.Vmi.TaskWalker
import SentinelStack.Lib.StampedTable
import SentinelStack.Lib.CText
import SentinelStack.Lib.Run

/- Privilege baselines (`task_walker_detect_privilege_escalation` in
   `task_walker.c`): every scan compares the processes of a snapshot with what the
   last one stored, in a table of 8192 entries that recycles its oldest entry.

   The table is a stamped table with the generation of the scan as the stamp
   (`stampedOf`), and a scan writes at most 4096 entries of it. Main result:
   `baseline_never_lost` — a pid that two consecutive successful scans process is
   compared, in the second, with what the first stored last, and is signalled for
   each privilege it gained, unless its name is on the list. -/
namespace SentinelStack.Vmi
open SentinelStack.Lib

def maxPrivBaseline : Nat := 8192

/-- A zeroed entry of `privilege_baseline`. -/
structure PrivilegeBaselineEntry where
  pid : U32 := 0
  uid : U32 := 0
  euid : U32 := 0
  capEffective : U64 := 0
  comm : CStr := []
  generation : U32 := 0
  used : Bool := false

abbrev BaselineTable := Fin maxPrivBaseline → PrivilegeBaselineEntry

def legitimateTransitionNames : List CStr :=
  [ascii "sudo", ascii "su", ascii "sshd", ascii "login", ascii "systemd"]

/-- `strncmp(a, b, n) == 0`. -/
def strncmpEq (n : Nat) (a b : CStr) : Bool := a.take n = b.take n

def stringInList (value : CStr) (list : List CStr) : Bool := list.any fun name => strncmpEq taskCommLen value name

def isLegitimatePrivTransition (proc : VmiProcess) : Bool :=
  stringInList (cstrOf proc.comm) legitimateTransitionNames

/-! The table. -/

def findBaseline (t : BaselineTable) (pid : U32) : Option (Fin maxPrivBaseline) :=
  (List.finRange maxPrivBaseline).find? fun i => (t i).used ∧ (t i).pid = pid

/-- The entry with the least generation, the first of them. -/
def oldestBaseline (t : BaselineTable) : Fin maxPrivBaseline :=
  (List.finRange maxPrivBaseline).tail.foldl
    (fun oldest i => if (t i).generation < (t oldest).generation then i else oldest) ⟨0, by decide⟩

/-- The first unused entry, or else the oldest one, zeroed for the pid. -/
def allocBaseline (t : BaselineTable) (pid : U32) : Fin maxPrivBaseline × BaselineTable :=
  let i := ((List.finRange maxPrivBaseline).find? fun i => ¬ (t i).used).getD (oldestBaseline t)
  (i, Function.update t i { pid := pid, used := true })

def baselineFor (t : BaselineTable) (pid : U32) : Fin maxPrivBaseline × BaselineTable :=
  match findBaseline t pid with
  | some i => (i, t)
  | none => allocBaseline t pid

/-! One process. -/

/-- A call of `bridge_signal_suspicious`: the pid and the reason. -/
structure PrivilegeSignal where
  pid : U32
  reason : CStr
  deriving DecidableEq, Repr

/-- `snprintf(reason, 96, "<kind> pid=%u comm=%s", …)`. -/
def signalFor (kind : CStr) (proc : VmiProcess) : PrivilegeSignal :=
  ⟨proc.pid, (kind ++ ascii " pid=" ++ fmtDec proc.pid.toNat ++ ascii " comm=" ++ cstrOf proc.comm).take 95⟩

/-- The comparison with a baseline. -/
def comparePrivileges (euid : U32) (capEffective : U64) (proc : VmiProcess) : List PrivilegeSignal :=
  let rootTransition := euid ≠ 0 ∧ proc.euid = 0
  let capsExpanded := proc.capEffective &&& ~~~capEffective ≠ 0
  (if rootTransition ∧ ¬ isLegitimatePrivTransition proc then [signalFor (ascii "priv_escalation") proc] else []) ++
    if capsExpanded ∧ ¬ isLegitimatePrivTransition proc then [signalFor (ascii "cap_expansion") proc] else []

/-- A process that is not skipped. -/
def VmiProcess.Processed (proc : VmiProcess) : Prop := 1 < proc.pid ∧ proc.mmAddr ≠ 0

instance (proc : VmiProcess) : Decidable proc.Processed := inferInstanceAs (Decidable (_ ∧ _))

/-- What the loop stores in the entry. -/
def storeBaseline (generation : U32) (proc : VmiProcess) (entry : PrivilegeBaselineEntry) : PrivilegeBaselineEntry :=
  { entry with
    uid := proc.uid
    euid := proc.euid
    capEffective := proc.capEffective
    comm := strncpyz taskCommLen (cstrOf proc.comm)
    generation := generation
    used := true }

/-- The loop body. -/
def checkProcess (generation : U32) (t : BaselineTable) (proc : VmiProcess) : BaselineTable × List PrivilegeSignal :=
  if proc.Processed then
    let slot := baselineFor t proc.pid
    let entry := slot.2 slot.1
    let signals := if entry.generation ≠ 0 then comparePrivileges entry.euid entry.capEffective proc else []
    (Function.update slot.2 slot.1 (storeBaseline generation proc entry), signals)
  else (t, [])

/-- The table after some processes of a scan. -/
def tableAfter (generation : U32) (t : BaselineTable) (procs : List VmiProcess) : BaselineTable :=
  run (fun t proc => (checkProcess generation t proc).1) t procs

/-- The signals of a scan. -/
def scanSignals (generation : U32) (t : BaselineTable) : List VmiProcess → List PrivilegeSignal
  | [] => []
  | proc :: rest =>
    (checkProcess generation t proc).2 ++ scanSignals generation (checkProcess generation t proc).1 rest

/-! One call. -/

structure PrivilegeState where
  privilegeBaseline : BaselineTable
  privilegeGeneration : U32

def PrivilegeState.init : PrivilegeState := ⟨fun _ => {}, 0⟩

/-- A snapshot of the process list. -/
abbrev Snapshot := { procs : List VmiProcess // procs.length ≤ maxTaskSnapshot }

/-- The scan of a snapshot: the signals, and the state after it. `none` is the return value -1. -/
def scanSnapshot (st : PrivilegeState) : Option Snapshot → Option (List PrivilegeSignal) × PrivilegeState
  | none => (none, st)
  | some snapshot =>
    let generation := st.privilegeGeneration + 1
    (some (scanSignals generation st.privilegeBaseline snapshot.val),
      ⟨tableAfter generation st.privilegeBaseline snapshot.val, generation⟩)

/-- What a call finds: the guest, the session, the offsets, and whether `calloc` succeeds. -/
structure DetectCall where
  host : Host
  session : TaskSession
  offsets : TaskOffsets
  callocOk : Bool

/-- What `snapshot_processes` gives the call. -/
def takeSnapshot (call : DetectCall) : Option Snapshot :=
  if call.session.initTaskAddr = 0 ∨ ¬ call.callocOk then none
  else
    match h : snapshotProcesses call.host call.session call.offsets maxTaskSnapshot with
    | none => none
    | some procs => some ⟨procs, length_snapshotProcesses_le h⟩

def taskWalkerDetectPrivilegeEscalation (st : PrivilegeState) (call : DetectCall) :
    Option (List PrivilegeSignal) × PrivilegeState :=
  scanSnapshot st (takeSnapshot call)

/-- The state after calls with these snapshots. -/
def privilegeRun (calls : List (Option Snapshot)) : PrivilegeState :=
  run (fun st call => (scanSnapshot st call).2) PrivilegeState.init calls

/-- The calls are a run over the snapshots they take. -/
theorem detect_run (calls : List DetectCall) :
    run (fun st call => (taskWalkerDetectPrivilegeEscalation st call).2) PrivilegeState.init calls =
      privilegeRun (calls.map takeSnapshot) := by
  rw [privilegeRun, run, run, List.foldl_map]
  rfl

/-! The slot of a pid. -/

theorem foldl_oldest_le (t : BaselineTable) (l : List (Fin maxPrivBaseline)) (a : Fin maxPrivBaseline) :
    (t (l.foldl (fun oldest i => if (t i).generation < (t oldest).generation then i else oldest) a)).generation ≤
        (t a).generation ∧
      ∀ i ∈ l, (t (l.foldl (fun oldest i => if (t i).generation < (t oldest).generation then i else oldest)
        a)).generation ≤ (t i).generation := by
  induction l generalizing a with
  | nil => exact ⟨Nat.le_refl _, by simp⟩
  | cons b rest ih =>
    obtain ⟨hfirst, hrest⟩ := ih (if (t b).generation < (t a).generation then b else a)
    rw [List.foldl_cons, List.forall_mem_cons]
    refine ⟨BitVec.le_trans hfirst ?_, BitVec.le_trans hfirst ?_, hrest⟩
    · split
      next hlt => exact Nat.le_of_lt hlt
      · exact Nat.le_refl _
    · split
      · exact Nat.le_refl _
      next hlt => exact Nat.le_of_not_lt hlt

theorem mem_finRange_tail {n : Nat} {i : Fin (n + 1)} (h : i ≠ 0) : i ∈ (List.finRange (n + 1)).tail := by
  obtain ⟨j, rfl⟩ := Fin.exists_succ_eq.mpr h
  rw [List.finRange_succ, List.tail_cons]
  exact List.mem_map.mpr ⟨j, List.mem_finRange j, rfl⟩

theorem oldestBaseline_le (t : BaselineTable) (i : Fin maxPrivBaseline) :
    (t (oldestBaseline t)).generation ≤ (t i).generation := by
  obtain ⟨hfirst, hrest⟩ := foldl_oldest_le t (List.finRange maxPrivBaseline).tail ⟨0, by decide⟩
  by_cases hi : i = ⟨0, by decide⟩
  · rw [hi]
    exact hfirst
  · exact hrest i (mem_finRange_tail (n := 8191) hi)

theorem findBaseline_some {t : BaselineTable} {pid : U32} {i : Fin maxPrivBaseline} (h : findBaseline t pid = some i) :
    (t i).used = true ∧ (t i).pid = pid := by
  unfold findBaseline at h
  have hfound := List.find?_some h
  exact of_decide_eq_true hfound

theorem findBaseline_none {t : BaselineTable} {pid : U32} (h : findBaseline t pid = none) (j : Fin maxPrivBaseline)
    (hused : (t j).used = true) : (t j).pid ≠ pid := by
  unfold findBaseline at h
  intro hpid
  exact List.find?_eq_none.mp h j (List.mem_finRange j) (decide_eq_true ⟨hused, hpid⟩)

/-- An unused entry, or the oldest of a full table. -/
theorem allocBaseline_cases (t : BaselineTable) (pid : U32) :
    ∃ i, allocBaseline t pid = (i, Function.update t i { pid := pid, used := true }) ∧
      ((t i).used = false ∨ (∀ j, (t j).used = true) ∧ ∀ j, (t i).generation ≤ (t j).generation) := by
  cases hfree : (List.finRange maxPrivBaseline).find? fun i => ¬ (t i).used with
  | some i =>
    have hunused := List.find?_some hfree
    refine ⟨i, ?_, Or.inl (by simpa using hunused)⟩
    rw [allocBaseline, hfree, Option.getD_some]
  | none =>
    refine ⟨oldestBaseline t, ?_, Or.inr ⟨?_, oldestBaseline_le t⟩⟩
    · rw [allocBaseline, hfree, Option.getD_none]
    · intro j
      have hno := List.find?_eq_none.mp hfree j (List.mem_finRange j)
      simpa using hno

/-- The entry of the pid, or one zeroed for it. -/
theorem baselineFor_cases (t : BaselineTable) (pid : U32) :
    (∃ i, findBaseline t pid = some i ∧ baselineFor t pid = (i, t) ∧ (t i).used = true ∧ (t i).pid = pid) ∨
      (∀ j, (t j).used = true → (t j).pid ≠ pid) ∧
        ∃ i, baselineFor t pid = (i, Function.update t i { pid := pid, used := true }) ∧
          ((t i).used = false ∨ (∀ j, (t j).used = true) ∧ ∀ j, (t i).generation ≤ (t j).generation) := by
  unfold baselineFor
  cases hfind : findBaseline t pid with
  | some i => exact Or.inl ⟨i, rfl, rfl, findBaseline_some hfind⟩
  | none =>
    obtain ⟨i, halloc, hold⟩ := allocBaseline_cases t pid
    exact Or.inr ⟨findBaseline_none hfind, i, halloc, hold⟩

/-! The table as a stamped table. -/

/-- The entries in use: stamped with their generation, and holding what is compared. -/
def stampedOf (t : BaselineTable) : StampedTable maxPrivBaseline U32 (U32 × U64) := fun i =>
  if (t i).used then some ⟨(t i).pid, (t i).generation.toNat, (t i).euid, (t i).capEffective⟩ else none

theorem stampedOf_some {t : BaselineTable} {i : Fin maxPrivBaseline} {e : StampedEntry U32 (U32 × U64)} :
    stampedOf t i = some e ↔
      (t i).used = true ∧ ⟨(t i).pid, (t i).generation.toNat, (t i).euid, (t i).capEffective⟩ = e := by
  rw [stampedOf]
  split
  next hused => simp [hused]
  next hunused => simp [hunused]

theorem stampedOf_update (t : BaselineTable) (i : Fin maxPrivBaseline) {entry : PrivilegeBaselineEntry}
    (hused : entry.used = true) :
    stampedOf (Function.update t i entry) =
      (stampedOf t).put i ⟨entry.pid, entry.generation.toNat, entry.euid, entry.capEffective⟩ := by
  funext j
  by_cases hj : j = i
  · rw [stampedOf, hj, Function.update_self, if_pos hused, StampedTable.put, Function.update_self]
  · rw [stampedOf, Function.update_of_ne hj, StampedTable.put, Function.update_of_ne hj, stampedOf]

/-- **A processed process writes its entry** in a slot the stamped table allows. -/
theorem checkProcess_put (generation : U32) (t : BaselineTable) {proc : VmiProcess} (h : proc.Processed) :
    ∃ i, (stampedOf t).SlotFor proc.pid i ∧ stampedOf (checkProcess generation t proc).1 =
      (stampedOf t).put i ⟨proc.pid, generation.toNat, proc.euid, proc.capEffective⟩ := by
  rw [checkProcess, if_pos h]
  dsimp only
  rcases baselineFor_cases t proc.pid with ⟨i, -, hslot, hused, hpid⟩ | ⟨habsent, i, hslot, hold⟩
  · refine ⟨i, Or.inl ⟨_, stampedOf_some.mpr ⟨hused, rfl⟩, hpid⟩, ?_⟩
    rw [hslot]
    dsimp only
    rw [stampedOf_update _ _ rfl, storeBaseline, hpid]
  · refine ⟨i, Or.inr ⟨?_, ?_⟩, ?_⟩
    · intro j e hj
      obtain ⟨hused, rfl⟩ := stampedOf_some.mp hj
      exact habsent j hused
    · rcases hold with hunused | ⟨hfull, holdest⟩
      · exact Or.inl (by rw [stampedOf, if_neg (by rw [hunused]; decide)])
      · refine Or.inr ⟨?_, ?_⟩
        · intro j hnone
          rw [stampedOf, if_pos (hfull j)] at hnone
          cases hnone
        · intro e hi j e' hj
          obtain ⟨-, rfl⟩ := stampedOf_some.mp hi
          obtain ⟨-, rfl⟩ := stampedOf_some.mp hj
          exact holdest j
    · rw [hslot]
      dsimp only
      rw [Function.update_idem, stampedOf_update _ _ rfl, Function.update_self]
      rfl

theorem checkProcess_skipped (generation : U32) (t : BaselineTable) {proc : VmiProcess} (h : ¬ proc.Processed) :
    checkProcess generation t proc = (t, []) := by
  rw [checkProcess, if_neg h]

/-! Scans. -/

section scan
variable {generation : U32} {t : BaselineTable} {m : Nat}

/-- The round of a scan, with one write for each process so far at most. -/
abbrev InScan (generation : U32) (t : BaselineTable) (m : Nat) : Prop :=
  (stampedOf t).InRound maxTaskSnapshot generation.toNat m

theorem inScan_step (h : InScan generation t m) (proc : VmiProcess) :
    InScan generation (checkProcess generation t proc).1 (m + 1) := by
  by_cases hproc : proc.Processed
  · obtain ⟨i, hslot, hput⟩ := checkProcess_put generation t hproc
    rw [InScan, hput]
    exact h.put _ hslot
  · rw [checkProcess_skipped generation t hproc]
    exact h.mono (Nat.le_succ m)

theorem inScan_run (h : InScan generation t m) (procs : List VmiProcess) :
    InScan generation (tableAfter generation t procs) (m + procs.length) := by
  induction procs generalizing t m with
  | nil => exact h
  | cons proc rest ih =>
    rw [List.length_cons, ← Nat.add_assoc, Nat.add_right_comm]
    exact ih (inScan_step h proc)

/-- A baseline of this scan or of the last one stays while other pids are processed. -/
theorem holds_run (h : InScan generation t m) {e : StampedEntry U32 (U32 × U64)} (hholds : (stampedOf t).Holds e)
    (hrecent : generation.toNat ≤ e.stamp + 1) (procs : List VmiProcess) (hroom : m + procs.length ≤ maxTaskSnapshot)
    (hothers : ∀ proc ∈ procs, proc.Processed → proc.pid ≠ e.key) :
    (stampedOf (tableAfter generation t procs)).Holds e := by
  induction procs generalizing t m with
  | nil => exact hholds
  | cons proc rest ih =>
    rw [List.forall_mem_cons] at hothers
    rw [List.length_cons] at hroom
    have hstep : (stampedOf (checkProcess generation t proc).1).Holds e := by
      by_cases hproc : proc.Processed
      · obtain ⟨i, hslot, hput⟩ := checkProcess_put generation t hproc
        rw [hput]
        exact h.holds_put _ (by omega) (by decide) hslot hholds (hothers.1 hproc).symm hrecent
      · rw [checkProcess_skipped generation t hproc]
        exact hholds
    exact ih (inScan_step h proc) hstep (by omega) hothers.2

/-- The entry a pid is compared with is the one the table holds for it. -/
theorem find_of_holds (h : InScan generation t m) {e : StampedEntry U32 (U32 × U64)} (hholds : (stampedOf t).Holds e) :
    ∃ i, findBaseline t e.key = some i ∧ baselineFor t e.key = (i, t) ∧
      (t i).generation.toNat = e.stamp ∧ (t i).euid = e.value.1 ∧ (t i).capEffective = e.value.2 := by
  obtain ⟨j, hj⟩ := hholds
  obtain ⟨hused, rfl⟩ := stampedOf_some.mp hj
  rcases baselineFor_cases t (t j).pid with ⟨i, hfind, hslot, hused', hpid⟩ | ⟨habsent, -⟩
  · obtain rfl : i = j := h.unique i j _ _ (stampedOf_some.mpr ⟨hused', rfl⟩) hj hpid
    exact ⟨i, hfind, hslot, rfl, rfl, rfl⟩
  · exact absurd rfl (habsent j hused)

end scan

theorem toNat_succ {generation : U32} (h : generation.toNat + 1 < 2 ^ 32) :
    (generation + 1).toNat = generation.toNat + 1 := by
  have hone : (1 : U32).toNat = 1 := rfl
  rw [BitVec.toNat_add, hone]
  exact Nat.mod_eq_of_lt h

/-- The next scan begins a round. -/
theorem inScan_next {st : PrivilegeState} (hlt : st.privilegeGeneration.toNat + 1 < 2 ^ 32)
    (h : InScan st.privilegeGeneration st.privilegeBaseline maxTaskSnapshot) :
    InScan (st.privilegeGeneration + 1) st.privilegeBaseline 0 := by
  rw [InScan, toNat_succ hlt]
  exact h.next (Nat.le_refl _)

/-- After every run the last scan is over, and the generation counts the scans. -/
theorem inScan_privilegeRun (calls : List (Option Snapshot)) (hcalls : calls.length < 2 ^ 32) :
    (privilegeRun calls).privilegeGeneration.toNat ≤ calls.length ∧
      InScan (privilegeRun calls).privilegeGeneration (privilegeRun calls).privilegeBaseline maxTaskSnapshot := by
  induction calls using List.reverseRecOn with
  | nil =>
    have hempty : stampedOf PrivilegeState.init.privilegeBaseline = fun _ => none := by
      funext i
      rfl
    refine ⟨Nat.le_refl 0, ?_⟩
    rw [InScan, privilegeRun, run_nil, hempty]
    exact StampedTable.inRound_empty.mono (Nat.zero_le _)
  | append_singleton calls call ih =>
    rw [List.length_append, List.length_singleton] at hcalls ⊢
    obtain ⟨hcount, hscan⟩ := ih (by omega)
    rw [privilegeRun, run_snoc]
    cases call with
    | none => exact ⟨hcount.trans (Nat.le_succ _), hscan⟩
    | some snapshot =>
      have hlt : (privilegeRun calls).privilegeGeneration.toNat + 1 < 2 ^ 32 := by omega
      refine ⟨(toNat_succ hlt).le.trans (Nat.succ_le_succ hcount), ?_⟩
      refine (inScan_run (inScan_next hlt hscan) snapshot.val).mono ?_
      rw [Nat.zero_add]
      exact snapshot.property

/-- The table when the next call has processed `pre`. -/
def tableAt (calls : List (Option Snapshot)) (pre : List VmiProcess) : BaselineTable :=
  tableAfter ((privilegeRun calls).privilegeGeneration + 1) (privilegeRun calls).privilegeBaseline pre

/-- The signals of the next call for the process it comes to then. -/
def signalsAt (calls : List (Option Snapshot)) (pre : List VmiProcess) (proc : VmiProcess) : List PrivilegeSignal :=
  (checkProcess ((privilegeRun calls).privilegeGeneration + 1) (tableAt calls pre) proc).2

theorem tableAfter_append (generation : U32) (t : BaselineTable) (pre rest : List VmiProcess) :
    tableAfter generation t (pre ++ rest) = tableAfter generation (tableAfter generation t pre) rest := run_append ..

theorem scanSignals_append (generation : U32) (t : BaselineTable) (pre rest : List VmiProcess) :
    scanSignals generation t (pre ++ rest) =
      scanSignals generation t pre ++ scanSignals generation (tableAfter generation t pre) rest := by
  induction pre generalizing t with
  | nil => rfl
  | cons proc pre ih => rw [List.cons_append, scanSignals, ih, scanSignals, List.append_assoc]; rfl

theorem comparePrivileges_pid {euid : U32} {capEffective : U64} {proc : VmiProcess} {signal : PrivilegeSignal}
    (h : signal ∈ comparePrivileges euid capEffective proc) : signal.pid = proc.pid := by
  rw [comparePrivileges, List.mem_append] at h
  rcases h with h | h
  · split at h
    · rw [List.mem_singleton.mp h, signalFor]
    · cases h
  · split at h
    · rw [List.mem_singleton.mp h, signalFor]
    · cases h

/-- Every signal is for a processed process. -/
theorem scanSignals_pid {generation : U32} {t : BaselineTable} {procs : List VmiProcess} {signal : PrivilegeSignal}
    (h : signal ∈ scanSignals generation t procs) : ∃ proc ∈ procs, proc.Processed ∧ signal.pid = proc.pid := by
  induction procs generalizing t with
  | nil => cases h
  | cons proc rest ih =>
    rw [scanSignals, List.mem_append] at h
    rcases h with hhere | hrest
    · refine ⟨proc, List.mem_cons_self, ?_⟩
      rw [checkProcess] at hhere
      split at hhere
      next hproc =>
        dsimp only at hhere
        split at hhere
        · exact ⟨hproc, comparePrivileges_pid hhere⟩
        · cases hhere
      · cases hhere
    · obtain ⟨other, hmem, hother⟩ := ih hrest
      exact ⟨other, List.mem_cons_of_mem proc hmem, hother⟩

/-- Some bit of the one is not in the other. -/
theorem and_not_ne_zero_iff (x y : U64) : x &&& ~~~y ≠ 0 ↔ ∃ k, x.getLsbD k = true ∧ y.getLsbD k = false := by
  constructor
  · intro hne
    by_contra hnone
    apply hne
    apply BitVec.eq_of_getLsbD_eq
    intro k hk
    have hright : (0 : U64).getLsbD k = false := BitVec.getLsbD_zero
    rw [BitVec.getLsbD_and, BitVec.getLsbD_not, decide_eq_true hk, Bool.true_and, hright]
    cases hx : x.getLsbD k with
    | false => rfl
    | true =>
      cases hy : y.getLsbD k with
      | true => rfl
      | false => exact absurd ⟨k, hx, hy⟩ hnone
  · rintro ⟨k, hx, hy⟩ hzero
    have hk : k < 64 := BitVec.lt_of_getLsbD hx
    have hbit : (x &&& ~~~y).getLsbD k = false := by
      rw [hzero]
      exact BitVec.getLsbD_zero
    rw [BitVec.getLsbD_and, BitVec.getLsbD_not, hx, hy, decide_eq_true hk] at hbit
    cases hbit

/-- Two things emitted under a condition each, and both not under a third. -/
theorem emitted_ne_nil {α : Type} {a b c : Prop} [Decidable a] [Decidable b] [Decidable c] (x y : α) :
    (if a ∧ ¬ c then [x] else []) ++ (if b ∧ ¬ c then [y] else []) ≠ [] ↔ ¬ c ∧ (a ∨ b) := by
  by_cases hc : c
  · simp [hc]
  · by_cases ha : a
    · simp [hc, ha]
    · simp [hc, ha]

theorem comparePrivileges_ne_nil (euid : U32) (capEffective : U64) (proc : VmiProcess) :
    comparePrivileges euid capEffective proc ≠ [] ↔ ¬ isLegitimatePrivTransition proc ∧
      (euid ≠ 0 ∧ proc.euid = 0 ∨ ∃ k, proc.capEffective.getLsbD k = true ∧ capEffective.getLsbD k = false) := by
  rw [← and_not_ne_zero_iff]
  exact emitted_ne_nil ..

theorem privilegeRun_failed (calls : List (Option Snapshot)) {failed : List (Option Snapshot)}
    (h : ∀ call ∈ failed, call = none) : privilegeRun (calls ++ failed) = privilegeRun calls := by
  induction failed using List.reverseRecOn with
  | nil => rw [List.append_nil]
  | append_singleton failed call ih =>
    rw [← List.append_assoc, privilegeRun, run_snoc, h call (by simp)]
    exact ih fun call' hcall' => h call' (by simp [hcall'])

/-- What the scan of a snapshot stores last for a pid is in the table after it. -/
theorem stored_in_scan (calls : List (Option Snapshot)) {snapshot : Snapshot} (hcalls : calls.length + 1 < 2 ^ 32)
    {pre post : List VmiProcess} {proc : VmiProcess} (hsplit : snapshot.val = pre ++ proc :: post)
    (hproc : proc.Processed) (hlast : ∀ other ∈ post, other.Processed → other.pid ≠ proc.pid) :
    (privilegeRun (calls ++ [some snapshot])).privilegeGeneration.toNat ≠ 0 ∧
      (stampedOf (privilegeRun (calls ++ [some snapshot])).privilegeBaseline).Holds ⟨proc.pid,
        (privilegeRun (calls ++ [some snapshot])).privilegeGeneration.toNat, proc.euid, proc.capEffective⟩ := by
  obtain ⟨hcount, hscan⟩ := inScan_privilegeRun calls (by omega)
  have hlt : (privilegeRun calls).privilegeGeneration.toNat + 1 < 2 ^ 32 := by omega
  have hlen : pre.length + 1 + post.length ≤ maxTaskSnapshot := by
    have hle := snapshot.property
    rw [hsplit, List.length_append, List.length_cons] at hle
    omega
  rw [privilegeRun, run_snoc, scanSnapshot, hsplit]
  dsimp only
  rw [tableAfter_append]
  refine ⟨?_, ?_⟩
  · rw [← privilegeRun, toNat_succ hlt]
    exact Nat.succ_ne_zero _
  · -- the process writes its entry, and no later one of the scan takes it away
    have hbefore := inScan_run (inScan_next hlt hscan) pre
    obtain ⟨i, -, hput⟩ := checkProcess_put ((privilegeRun calls).privilegeGeneration + 1)
      (tableAfter ((privilegeRun calls).privilegeGeneration + 1) (privilegeRun calls).privilegeBaseline pre) hproc
    refine holds_run (inScan_step hbefore proc) ?_ (Nat.le_succ _) post (by omega) hlast
    rw [hput]
    exact StampedTable.holds_put_self _

/-- The signals of a scan, cut at one of its processes. -/
theorem signals_split (calls : List (Option Snapshot)) {snapshot : Snapshot} {pre post : List VmiProcess}
    {proc : VmiProcess} (hsplit : snapshot.val = pre ++ proc :: post) :
    (scanSnapshot (privilegeRun calls) (some snapshot)).1 =
      some (scanSignals ((privilegeRun calls).privilegeGeneration + 1) (privilegeRun calls).privilegeBaseline pre ++
        signalsAt calls pre proc ++
        scanSignals ((privilegeRun calls).privilegeGeneration + 1) (tableAt calls (pre ++ [proc])) post) := by
  rw [tableAt, tableAfter_append _ _ pre [proc], scanSnapshot, hsplit, scanSignals_append, scanSignals, List.append_assoc]
  rfl

/-- A pid with a baseline is compared with it. -/
theorem checkProcess_compares (generation : U32) {t : BaselineTable} {proc : VmiProcess} (hproc : proc.Processed)
    {i : Fin maxPrivBaseline} (hslot : baselineFor t proc.pid = (i, t)) (hbaseline : (t i).generation ≠ 0) :
    (checkProcess generation t proc).2 = comparePrivileges (t i).euid (t i).capEffective proc := by
  rw [checkProcess, if_pos hproc, hslot]
  exact if_pos hbaseline

/-- **Baselines are never lost.** -/
theorem baseline_never_lost (before failed : List (Option Snapshot)) (first second : Snapshot)
    (hcalls : (before ++ [some first] ++ failed ++ [some second]).length < 2 ^ 32)
    (hfailed : ∀ call ∈ failed, call = none) (pre₁ post₁ pre₂ post₂ : List VmiProcess) (proc₁ proc₂ : VmiProcess)
    (hfirst : first.val = pre₁ ++ proc₁ :: post₁) (hproc₁ : proc₁.Processed)
    (hlast : ∀ other ∈ post₁, other.Processed → other.pid ≠ proc₁.pid)
    (hsecond : second.val = pre₂ ++ proc₂ :: post₂) (hproc₂ : proc₂.Processed) (hpid : proc₂.pid = proc₁.pid)
    (hnew : ∀ other ∈ pre₂, other.Processed → other.pid ≠ proc₂.pid) :
    (∃ i, findBaseline (tableAt (before ++ [some first] ++ failed) pre₂) proc₂.pid = some i ∧
        (tableAt (before ++ [some first] ++ failed) pre₂ i).euid = proc₁.euid ∧
        (tableAt (before ++ [some first] ++ failed) pre₂ i).capEffective = proc₁.capEffective) ∧
      signalsAt (before ++ [some first] ++ failed) pre₂ proc₂ =
        comparePrivileges proc₁.euid proc₁.capEffective proc₂ ∧
      (signalsAt (before ++ [some first] ++ failed) pre₂ proc₂ ≠ [] ↔ ¬ isLegitimatePrivTransition proc₂ ∧
        (proc₁.euid ≠ 0 ∧ proc₂.euid = 0 ∨
          ∃ k, proc₂.capEffective.getLsbD k = true ∧ proc₁.capEffective.getLsbD k = false)) ∧
      ∃ earlier later, (∀ signal ∈ earlier, signal.pid ≠ proc₂.pid) ∧
        (scanSnapshot (privilegeRun (before ++ [some first] ++ failed)) (some second)).1 =
          some (earlier ++ signalsAt (before ++ [some first] ++ failed) pre₂ proc₂ ++ later) := by
  have hstate : privilegeRun (before ++ [some first] ++ failed) = privilegeRun (before ++ [some first]) :=
    privilegeRun_failed _ hfailed
  simp only [List.length_append, List.length_singleton] at hcalls
  obtain ⟨hgeneration, hstored⟩ := stored_in_scan before (by omega) hfirst hproc₁ hlast
  obtain ⟨hcount, hscan⟩ := inScan_privilegeRun (before ++ [some first] ++ failed)
    (by simp only [List.length_append, List.length_singleton]; omega)
  simp only [List.length_append, List.length_singleton] at hcount
  have hround := inScan_next (by omega) hscan
  rw [← hstate] at hgeneration hstored
  have hlen : pre₂.length ≤ maxTaskSnapshot := by
    have hle := second.property
    rw [hsecond, List.length_append] at hle
    omega
  -- the second scan does not recycle the entry of the first before it comes to the pid
  have hholds := holds_run hround hstored (by rw [toNat_succ (by omega)]) pre₂ (by omega)
    (fun other hmem hother => hpid ▸ hnew other hmem hother)
  obtain ⟨i, hfind, hslot, hstamp, heuid, hcaps⟩ := find_of_holds (inScan_run hround pre₂) hholds
  have hsignals : signalsAt (before ++ [some first] ++ failed) pre₂ proc₂ =
      comparePrivileges proc₁.euid proc₁.capEffective proc₂ := by
    have hbaseline : (tableAt (before ++ [some first] ++ failed) pre₂ i).generation ≠ 0 := by
      intro hzero
      rw [← tableAt, hzero] at hstamp
      exact hgeneration hstamp.symm
    rw [← hpid] at hslot
    rw [signalsAt, tableAt, checkProcess_compares _ hproc₂ hslot hbaseline, heuid, hcaps]
  refine ⟨⟨i, ?_, heuid, hcaps⟩, hsignals, ?_, ?_⟩
  · rw [hpid]
    exact hfind
  · rw [hsignals]
    exact comparePrivileges_ne_nil ..
  · refine ⟨_, _, ?_, signals_split _ hsecond⟩
    intro signal hmem
    obtain ⟨other, hother, hprocessed, heq⟩ := scanSignals_pid hmem
    rw [heq]
    exact hnew other hother hprocessed

/-- A shell with pid 7. -/
def shellAs (euid : U32) : VmiProcess where
  taskAddr := 0x10000
  pid := 7
  tgid := 7
  ppid := 1
  uid := 1000
  gid := 1000
  euid := euid
  egid := 1000
  comm := ascii "sh" ++ List.replicate 14 0
  mmAddr := 0x20000
  credAddr := 0x30000
  filesAddr := 0
  nsproxyAddr := 0
  startTime := 0
  flags := 0
  capEffective := 0

/-- A shell that becomes root between two scans, one failed call apart. -/
theorem baseline_never_lost_shell :
    signalsAt ([] ++ [some ⟨[shellAs 1000], by decide⟩] ++ [none]) [] (shellAs 0) =
        comparePrivileges 1000 0 (shellAs 0) ∧
      signalsAt ([] ++ [some ⟨[shellAs 1000], by decide⟩] ++ [none]) [] (shellAs 0) ≠ [] := by
  obtain ⟨-, hsignals, hiff, -⟩ := baseline_never_lost [] [none] ⟨[shellAs 1000], by decide⟩ ⟨[shellAs 0], by decide⟩
    (by decide) (by simp) [] [] [] [] (shellAs 1000) (shellAs 0) rfl (by decide) (by simp) rfl (by decide) rfl (by simp)
  exact ⟨hsignals, hiff.mpr ⟨by decide +kernel, Or.inl (by decide)⟩⟩

end SentinelStack.Vmi
