import SentinelStack.Vmi.BridgeDelivery
import Mathlib.Data.Finset.Card
import Mathlib.Data.Fintype.Card
import Mathlib.Data.Finset.Option

/- The threat policy, pid by pid (`apply_threat_policy` in `bridge.c`).

   All pids share one table of 1024 slots. A pid is judged by its own slot
   (`judge`), and by a zeroed one when it has none; a pid that has none takes the
   first free slot, or else the slot of another. `ownVerdicts` is the policy of a
   pid that never loses its slot: a function of its own signals alone. Main
   result: `verdicts_independent` — the verdicts of a pid are those, whatever
   other pids did, in every history that leaves the pid its slot from each of its
   signals to the next; and a history that does not judges it by a state that its
   own signals do not give. `eviction_resets_burst` is such a history. -/
namespace SentinelStack.Vmi
open SentinelStack.Lib

/-! One slot. -/

structure PolicyVerdict where
  effective : ThreatLevel
  suppressEmit : Bool
  escalated : Bool
  deriving DecidableEq, Repr

def PolicyResult.verdict (r : PolicyResult) : PolicyVerdict := ⟨r.effective, r.suppressEmit, r.escalated⟩

/-- `apply_threat_policy` on the slot of its pid. -/
def judge (state : PidPolicyState) (requested : ThreatLevel) (nowNs : U64) : PolicyVerdict × PidPolicyState :=
  let burst := applyBurst state requested nowNs
  let suppress : Bool :=
    burst.2.1 = burst.1.lastEffectiveThreat ∧ nowNs - burst.1.lastEmitNs < policyDedupWindowNs ∧ ¬ burst.2.2
  (⟨burst.2.1, suppress, burst.2.2⟩,
    if suppress then burst.1 else { burst.1 with lastEffectiveThreat := burst.2.1, lastEmitNs := nowNs })

/-- The slot a pid starts with. -/
def freshState (pid : U32) : PidPolicyState := { pid := pid, used := true }

/-- A slot in use for the pid. -/
def PidPolicyState.Serves (state : PidPolicyState) (pid : U32) : Prop := state.used = true ∧ state.pid = pid

instance (state : PidPolicyState) (pid : U32) : Decidable (state.Serves pid) := inferInstanceAs (Decidable (_ ∧ _))

/-- The state the pid is judged by. -/
def stateFor (t : PolicyTable) (pid : U32) : PidPolicyState := (getPolicyState t pid).2 (getPolicyState t pid).1

/-- The pid has a slot. -/
def HoldsSlot (t : PolicyTable) (pid : U32) : Prop := ∃ i, (t i).Serves pid

/-- No pid has two. -/
def OneSlotEach (t : PolicyTable) : Prop := ∀ i j pid, (t i).Serves pid → (t j).Serves pid → i = j

theorem applyThreatPolicy_verdict (t : PolicyTable) (pid : U32) (requested : ThreatLevel) (nowNs : U64) :
    (applyThreatPolicy t pid requested nowNs).verdict = (judge (stateFor t pid) requested nowNs).1 := rfl

theorem applyThreatPolicy_table (t : PolicyTable) (pid : U32) (requested : ThreatLevel) (nowNs : U64) :
    (applyThreatPolicy t pid requested nowNs).policyTable =
      Function.update (getPolicyState t pid).2 (getPolicyState t pid).1
        (judge (stateFor t pid) requested nowNs).2 := by
  simp only [applyThreatPolicy, judge, stateFor]
  congr 1

theorem applyBurst_serves {state : PidPolicyState} {pid : U32} (h : state.Serves pid) (requested : ThreatLevel)
    (nowNs : U64) : (applyBurst state requested nowNs).1.Serves pid := by
  unfold applyBurst countSuspicious
  dsimp only
  repeat' split
  all_goals exact h

/-- The slot stays that of its pid. -/
theorem judge_serves {state : PidPolicyState} {pid : U32} (h : state.Serves pid) (requested : ThreatLevel)
    (nowNs : U64) : (judge state requested nowNs).2.Serves pid := by
  have hburst := applyBurst_serves h requested nowNs
  unfold judge
  dsimp only
  split
  · exact hburst
  · exact hburst

/-! The table. -/

theorem scanPolicy_found {t : PolicyTable} {pid : U32} {slots : List (Fin pidPolicyTableSize)}
    {free : Option (Fin pidPolicyTableSize)} {i : Fin pidPolicyTableSize} (h : scanPolicy t pid slots free = .inl i) :
    (t i).Serves pid := by
  induction slots generalizing free with
  | nil => cases h
  | cons j rest ih =>
    rw [scanPolicy] at h
    split at h
    next hserves =>
      cases h
      exact hserves
    · split at h
      · exact ih h
      · exact ih h

/-- A scan that finds no slot of the pid has met none, and has remembered a free one if it met any. -/
theorem scanPolicy_missing {t : PolicyTable} {pid : U32} {slots : List (Fin pidPolicyTableSize)}
    {free found : Option (Fin pidPolicyTableSize)} (h : scanPolicy t pid slots free = .inr found) :
    (∀ i ∈ slots, ¬ (t i).Serves pid) ∧
      (found = none → free = none ∧ ∀ i ∈ slots, (t i).used = true) ∧
      (∀ i, found = some i → free = some i ∨ (t i).used = false) := by
  induction slots generalizing free with
  | nil =>
    rw [scanPolicy, Sum.inr.injEq] at h
    subst h
    exact ⟨by simp, fun hnone => ⟨hnone, by simp⟩, fun i hi => Or.inl hi⟩
  | cons j rest ih =>
    rw [scanPolicy] at h
    split at h
    · cases h
    next hserves =>
      split at h
      next hfree =>
        obtain ⟨hmissing, hnone, hsome⟩ := ih h
        refine ⟨?_, ?_, ?_⟩
        · exact List.forall_mem_cons.mpr ⟨hserves, hmissing⟩
        · intro hfound
          cases (hnone hfound).1
        · intro i hi
          rcases hsome i hi with heq | hused
          · obtain rfl : j = i := Option.some.inj heq
            exact Or.inr (by simpa using hfree.1)
          · exact Or.inr hused
      next hfree =>
        obtain ⟨hmissing, hnone, hsome⟩ := ih h
        refine ⟨?_, ?_, hsome⟩
        · exact List.forall_mem_cons.mpr ⟨hserves, hmissing⟩
        · intro hfound
          obtain ⟨hfree', hused⟩ := hnone hfound
          have hj : (t j).used = true := by
            by_contra hno
            exact hfree ⟨hno, hfree'⟩
          exact ⟨hfree', List.forall_mem_cons.mpr ⟨hj, hused⟩⟩

/-- The slot of the pid; a free one; or, in a full table, the one the pid is assigned. -/
theorem getPolicyState_cases (t : PolicyTable) (pid : U32) :
    (∃ i, (t i).Serves pid ∧ getPolicyState t pid = (i, t)) ∨
      ¬ HoldsSlot t pid ∧ ∃ i, ((t i).used = false ∨
          (∀ j, (t j).used = true) ∧ i.val = pid.toNat % pidPolicyTableSize) ∧
        getPolicyState t pid = (i, Function.update t i (freshState pid)) := by
  unfold getPolicyState
  cases hscan : scanPolicy t pid (List.finRange pidPolicyTableSize) none with
  | inl i => exact Or.inl ⟨i, scanPolicy_found hscan, rfl⟩
  | inr found =>
    obtain ⟨hmissing, hnone, hsome⟩ := scanPolicy_missing hscan
    refine Or.inr ⟨?_, _, ?_, rfl⟩
    · intro hholds
      obtain ⟨i, hi⟩ := hholds
      exact hmissing i (List.mem_finRange i) hi
    · cases found with
      | none => exact Or.inr ⟨fun j => (hnone rfl).2 j (List.mem_finRange j), rfl⟩
      | some i => exact Or.inl ((hsome i rfl).resolve_left (by simp))

/-- **What a signal does to the table.** One slot changes: that of the pid, or the one it gets. -/
theorem applyThreatPolicy_cases (t : PolicyTable) (pid : U32) (requested : ThreatLevel) (nowNs : U64) :
    ∃ i, (applyThreatPolicy t pid requested nowNs).policyTable =
        Function.update t i (judge (stateFor t pid) requested nowNs).2 ∧
      (judge (stateFor t pid) requested nowNs).2.Serves pid ∧
      ((t i).Serves pid ∧ stateFor t pid = t i ∨
        ¬ HoldsSlot t pid ∧ stateFor t pid = freshState pid ∧
          ((t i).used = false ∨ (∀ j, (t j).used = true) ∧ i.val = pid.toNat % pidPolicyTableSize)) := by
  rcases getPolicyState_cases t pid with ⟨i, hserves, heq⟩ | ⟨hmissing, i, hslot, heq⟩
  · have hstate : stateFor t pid = t i := by rw [stateFor, heq]
    refine ⟨i, ?_, ?_, Or.inl ⟨hserves, hstate⟩⟩
    · rw [applyThreatPolicy_table, heq]
    · rw [hstate]
      exact judge_serves hserves requested nowNs
  · have hstate : stateFor t pid = freshState pid := by
      rw [stateFor, heq]
      exact Function.update_self ..
    refine ⟨i, ?_, ?_, Or.inr ⟨hmissing, hstate, hslot⟩⟩
    · rw [applyThreatPolicy_table, heq]
      exact Function.update_idem ..
    · rw [hstate]
      exact judge_serves ⟨rfl, rfl⟩ requested nowNs

theorem stateFor_of_not_holds {t : PolicyTable} {pid : U32} (h : ¬ HoldsSlot t pid) : stateFor t pid = freshState pid := by
  rcases getPolicyState_cases t pid with ⟨i, hserves, -⟩ | ⟨-, i, -, heq⟩
  · exact absurd ⟨i, hserves⟩ h
  · rw [stateFor, heq]
    exact Function.update_self ..

theorem stateFor_of_serves {t : PolicyTable} (hone : OneSlotEach t) {pid : U32} {i : Fin pidPolicyTableSize}
    (h : (t i).Serves pid) : stateFor t pid = t i := by
  rcases getPolicyState_cases t pid with ⟨j, hserves, heq⟩ | ⟨hmissing, -⟩
  · rw [stateFor, heq, hone i j pid h hserves]
  · exact absurd ⟨i, h⟩ hmissing

/-- A slot given to a pid that no other slot serves. -/
theorem oneSlotEach_update {t : PolicyTable} (hone : OneSlotEach t) {i : Fin pidPolicyTableSize} {state : PidPolicyState}
    {pid : U32} (hnew : state.Serves pid) (hother : ∀ j, j ≠ i → ¬ (t j).Serves pid) :
    OneSlotEach (Function.update t i state) := by
  intro a b q ha hb
  by_cases hai : a = i
  · by_cases hbi : b = i
    · rw [hai, hbi]
    · rw [hai, Function.update_self] at ha
      rw [Function.update_of_ne hbi] at hb
      rw [ha.2.symm.trans hnew.2] at hb
      exact absurd hb (hother b hbi)
  · rw [Function.update_of_ne hai] at ha
    by_cases hbi : b = i
    · rw [hbi, Function.update_self] at hb
      rw [hb.2.symm.trans hnew.2] at ha
      exact absurd ha (hother a hai)
    · rw [Function.update_of_ne hbi] at hb
      exact hone a b q ha hb

section step
variable {t : PolicyTable} {pid : U32} (requested : ThreatLevel) (nowNs : U64)

theorem oneSlotEach_step (hone : OneSlotEach t) :
    OneSlotEach (applyThreatPolicy t pid requested nowNs).policyTable := by
  obtain ⟨i, htable, hnew, hcase⟩ := applyThreatPolicy_cases t pid requested nowNs
  rw [htable]
  apply oneSlotEach_update hone hnew
  intro j hj hserves
  rcases hcase with ⟨hi, -⟩ | ⟨hmissing, -⟩
  · exact hj (hone j i pid hserves hi)
  · exact hmissing ⟨j, hserves⟩

/-- The pid that signals has its slot afterwards, with the state it was judged to. -/
theorem step_own (hone : OneSlotEach t) :
    HoldsSlot (applyThreatPolicy t pid requested nowNs).policyTable pid ∧
      stateFor (applyThreatPolicy t pid requested nowNs).policyTable pid =
        (judge (stateFor t pid) requested nowNs).2 := by
  obtain ⟨i, htable, hnew, -⟩ := applyThreatPolicy_cases t pid requested nowNs
  have hone' : OneSlotEach (applyThreatPolicy t pid requested nowNs).policyTable := oneSlotEach_step requested nowNs hone
  have hi : ((applyThreatPolicy t pid requested nowNs).policyTable i).Serves pid := by
    rw [htable, Function.update_self]
    exact hnew
  refine ⟨⟨i, hi⟩, ?_⟩
  rw [stateFor_of_serves hone' hi, htable, Function.update_self]

/-- Another pid that has its slot afterwards had it before, with the same state. -/
theorem step_other (hone : OneSlotEach t) {p : U32} (hp : p ≠ pid)
    (h : HoldsSlot (applyThreatPolicy t pid requested nowNs).policyTable p) :
    HoldsSlot t p ∧ stateFor (applyThreatPolicy t pid requested nowNs).policyTable p = stateFor t p := by
  obtain ⟨i, htable, hnew, -⟩ := applyThreatPolicy_cases t pid requested nowNs
  have hone' : OneSlotEach (applyThreatPolicy t pid requested nowNs).policyTable := oneSlotEach_step requested nowNs hone
  obtain ⟨j, hj⟩ := h
  have hji : j ≠ i := by
    rintro rfl
    rw [htable, Function.update_self] at hj
    exact hp (hj.2.symm.trans hnew.2)
  have hstate := stateFor_of_serves hone' hj
  rw [htable, Function.update_of_ne hji] at hj
  refine ⟨⟨j, hj⟩, ?_⟩
  rw [hstate, htable, Function.update_of_ne hji, stateFor_of_serves hone hj]

end step

/-! Histories. -/

structure PolicySignal where
  pid : U32
  requested : ThreatLevel
  nowNs : U64
  deriving DecidableEq, Repr

/-- What a call puts to the policy. -/
def BridgeOp.signal? : BridgeOp → Option PolicySignal
  | .signalMalicious pid _ nowNs _ => some ⟨pid, .malicious, nowNs⟩
  | .signalSuspicious pid _ nowNs _ => some ⟨pid, .suspicious, nowNs⟩
  | .flushAlerts => none

/-- The level and the time of a signal for the pid. -/
def BridgeOp.signalFor (p : U32) (op : BridgeOp) : Option (ThreatLevel × U64) :=
  op.signal?.bind fun signal => if signal.pid = p then some (signal.requested, signal.nowNs) else none

def signalsOf (p : U32) (ops : List BridgeOp) : List (ThreatLevel × U64) := ops.filterMap (·.signalFor p)

/-- The policy table after a call. -/
def policyStep (t : PolicyTable) (op : BridgeOp) : PolicyTable :=
  match op.signal? with
  | some signal => (applyThreatPolicy t signal.pid signal.requested signal.nowNs).policyTable
  | none => t

/-- The policy table after calls made after `bridge_init`. -/
def policyRun (ops : List BridgeOp) : PolicyTable := run policyStep (fun _ => {}) ops

/-- The verdicts on the pid's signals. -/
def verdictsFrom (p : U32) (t : PolicyTable) : List BridgeOp → List PolicyVerdict
  | [] => []
  | op :: ops =>
    (op.signalFor p).toList.map (fun signal => (applyThreatPolicy t p signal.1 signal.2).verdict) ++
      verdictsFrom p (policyStep t op) ops

def verdictsFor (p : U32) (ops : List BridgeOp) : List PolicyVerdict := verdictsFrom p (fun _ => {}) ops

/-- The slot of a pid that never lost it. -/
def ownState (p : U32) (signals : List (ThreatLevel × U64)) : PidPolicyState :=
  run (fun state signal => (judge state signal.1 signal.2).2) (freshState p) signals

/-- The verdicts on a pid that never loses its slot. -/
def ownVerdicts (p : U32) : List (ThreatLevel × U64) → List PolicyVerdict
  | signals => judgeAll (freshState p) signals
where
  judgeAll : PidPolicyState → List (ThreatLevel × U64) → List PolicyVerdict
    | _, [] => []
    | state, signal :: signals =>
      (judge state signal.1 signal.2).1 :: judgeAll (judge state signal.1 signal.2).2 signals

/-- The pid has its slot at each of its signals but the first. -/
def KeepsSlot (p : U32) (ops : List BridgeOp) : Prop :=
  ∀ pre op post, ops = pre ++ op :: post → op.signalFor p ≠ none → signalsOf p pre ≠ [] →
    HoldsSlot (policyRun pre) p

section frame
variable (env : MapEnv)

theorem flushLoop_policyTable (s : BridgeState) (qs : List QueuedAlert) :
    (flushLoop env s qs).policyTable = s.policyTable := by
  induction qs generalizing s with
  | nil => rfl
  | cons q qs ih =>
    rw [flushLoop, ih]
    split
    · rfl
    · rfl

theorem bridgeFlushAlerts_policyTable (s : BridgeState) : (bridgeFlushAlerts env s).policyTable = s.policyTable := by
  unfold bridgeFlushAlerts
  split
  · rfl
  · exact flushLoop_policyTable env s s.alertQueue.entries

theorem pushAlert_policyTable (s : BridgeState) (alert : VmiAlert) (immediate : Bool)
    (h : s.alertQueue.entries.length < alertQueueSize) :
    (pushAlert env s alert immediate h).policyTable = s.policyTable := by
  unfold pushAlert
  dsimp only
  split
  · rfl
  · rfl

/-- A full queue is flushed, so there is room for every alert. -/
theorem enqueueAlert_pushes (s : BridgeState) (pid : U32) (level : ThreatLevel) (reason : Option CStr)
    (immediate : Bool) (stampNs : U64) :
    ∃ h, enqueueAlert env s pid level reason immediate stampNs =
      pushAlert env (if s.alertQueue.entries.length ≥ alertQueueSize then bridgeFlushAlerts env s else s)
        (newAlert pid level reason stampNs) immediate h := by
  have hroom : (if s.alertQueue.entries.length ≥ alertQueueSize then bridgeFlushAlerts env s
      else s).alertQueue.entries.length < alertQueueSize := by
    split
    · exact flush_leaves_room env s
    next hfull => exact Nat.lt_of_not_le hfull
  refine ⟨hroom, ?_⟩
  unfold enqueueAlert
  exact dif_pos hroom

theorem enqueueAlert_policyTable (s : BridgeState) (pid : U32) (level : ThreatLevel) (reason : Option CStr)
    (immediate : Bool) (stampNs : U64) :
    (enqueueAlert env s pid level reason immediate stampNs).policyTable = s.policyTable := by
  obtain ⟨hroom, hpush⟩ := enqueueAlert_pushes env s pid level reason immediate stampNs
  rw [hpush, pushAlert_policyTable]
  split
  · exact bridgeFlushAlerts_policyTable env s
  · rfl

theorem bridgeSignal_policyTable (requested : ThreatLevel) (immediate : ThreatLevel → Bool) (s : BridgeState)
    (pid : U32) (reason : Option CStr) (nowNs stampNs : U64) :
    (bridgeSignal requested immediate env s pid reason nowNs stampNs).policyTable =
      (applyThreatPolicy s.policyTable pid requested nowNs).policyTable := by
  unfold bridgeSignal
  dsimp only
  split
  · rfl
  · rw [enqueueAlert_policyTable]

theorem bridgeStep_policyTable (s : BridgeState) (op : BridgeOp) :
    (bridgeStep env s op).policyTable = policyStep s.policyTable op := by
  cases op with
  | signalMalicious pid reason nowNs stampNs =>
    rw [bridgeStep, bridgeSignalMalicious, bridgeSignal_policyTable, policyStep, BridgeOp.signal?]
  | signalSuspicious pid reason nowNs stampNs =>
    rw [bridgeStep, bridgeSignalSuspicious, bridgeSignal_policyTable, policyStep, BridgeOp.signal?]
  | flushAlerts => exact bridgeFlushAlerts_policyTable env s

/-- The policy runs alone: queue and map have no part in it. -/
theorem bridgeRun_policyTable (vmiAlertMap : U32 → Option ThreatLevel) (ops : List BridgeOp) :
    (bridgeRun env vmiAlertMap ops).policyTable = policyRun ops := by
  induction ops using List.reverseRecOn with
  | nil => rfl
  | append_singleton ops op ih =>
    rw [bridgeRun, run_snoc, bridgeStep_policyTable, policyRun, run_snoc]
    exact congrArg (policyStep · op) ih

end frame

theorem signalsOf_append (p : U32) (ops rest : List BridgeOp) :
    signalsOf p (ops ++ rest) = signalsOf p ops ++ signalsOf p rest := List.filterMap_append

theorem signalsOf_snoc (p : U32) (ops : List BridgeOp) (op : BridgeOp) :
    signalsOf p (ops ++ [op]) = signalsOf p ops ++ (op.signalFor p).toList := by
  rw [signalsOf_append]
  cases h : op.signalFor p with
  | none => simp [signalsOf, h]
  | some signal => simp [signalsOf, h]

theorem verdictsFrom_append (p : U32) (t : PolicyTable) (ops rest : List BridgeOp) :
    verdictsFrom p t (ops ++ rest) = verdictsFrom p t ops ++ verdictsFrom p (run policyStep t ops) rest := by
  induction ops generalizing t with
  | nil => rfl
  | cons op ops ih => rw [List.cons_append, verdictsFrom, ih, verdictsFrom, List.append_assoc, run_cons]

theorem verdictsFor_snoc (p : U32) (ops : List BridgeOp) (op : BridgeOp) :
    verdictsFor p (ops ++ [op]) = verdictsFor p ops ++
      (op.signalFor p).toList.map (fun signal => (judge (stateFor (policyRun ops) p) signal.1 signal.2).1) := by
  simp only [verdictsFor, verdictsFrom_append, verdictsFrom, List.append_nil, applyThreatPolicy_verdict, policyRun]

theorem ownState_snoc (p : U32) (signals : List (ThreatLevel × U64)) (signal : ThreatLevel × U64) :
    ownState p (signals ++ [signal]) = (judge (ownState p signals) signal.1 signal.2).2 := run_snoc ..

theorem judgeAll_append (state : PidPolicyState) (signals : List (ThreatLevel × U64)) (signal : ThreatLevel × U64) :
    ownVerdicts.judgeAll state (signals ++ [signal]) = ownVerdicts.judgeAll state signals ++
      [(judge (run (fun state signal => (judge state signal.1 signal.2).2) state signals) signal.1 signal.2).1] := by
  induction signals generalizing state with
  | nil => rfl
  | cons first rest ih => rw [List.cons_append, ownVerdicts.judgeAll, ih, ownVerdicts.judgeAll, run_cons, List.cons_append]

theorem ownVerdicts_snoc (p : U32) (signals : List (ThreatLevel × U64)) (signal : ThreatLevel × U64) :
    ownVerdicts p (signals ++ [signal]) =
      ownVerdicts p signals ++ [(judge (ownState p signals) signal.1 signal.2).1] := judgeAll_append ..

theorem policyRun_snoc (ops : List BridgeOp) (op : BridgeOp) :
    policyRun (ops ++ [op]) = policyStep (policyRun ops) op := run_snoc ..

/-- What a call does to the table: nothing, or one application of the policy. -/
theorem policyStep_cases (p : U32) (t : PolicyTable) (op : BridgeOp) :
    (op.signalFor p = none ∧ (policyStep t op = t ∨ ∃ pid requested nowNs, p ≠ pid ∧
        policyStep t op = (applyThreatPolicy t pid requested nowNs).policyTable)) ∨
      ∃ requested nowNs, requested ≠ .clean ∧ op.signalFor p = some (requested, nowNs) ∧
        policyStep t op = (applyThreatPolicy t p requested nowNs).policyTable := by
  cases op with
  | flushAlerts => exact Or.inl ⟨rfl, Or.inl rfl⟩
  | signalMalicious pid reason nowNs stampNs =>
    by_cases hp : pid = p
    · subst hp
      exact Or.inr ⟨.malicious, nowNs, by decide, by simp [BridgeOp.signalFor, BridgeOp.signal?], rfl⟩
    · exact Or.inl ⟨by simp [BridgeOp.signalFor, BridgeOp.signal?, hp],
        Or.inr ⟨pid, .malicious, nowNs, fun h => hp h.symm, rfl⟩⟩
  | signalSuspicious pid reason nowNs stampNs =>
    by_cases hp : pid = p
    · subst hp
      exact Or.inr ⟨.suspicious, nowNs, by decide, by simp [BridgeOp.signalFor, BridgeOp.signal?], rfl⟩
    · exact Or.inl ⟨by simp [BridgeOp.signalFor, BridgeOp.signal?, hp],
        Or.inr ⟨pid, .suspicious, nowNs, fun h => hp h.symm, rfl⟩⟩

theorem policyRun_oneSlotEach (ops : List BridgeOp) : OneSlotEach (policyRun ops) := by
  refine run_inv (I := OneSlotEach) ?_ ?_ ops
  · intro t op hone
    unfold policyStep
    split
    next signal _ => exact oneSlotEach_step signal.requested signal.nowNs hone
    · exact hone
  · intro i j pid hi
    cases hi.1

/-- The table as the pid sees it: its slot, if it has one, holds what its signals gave. -/
def Faithful (t : PolicyTable) (p : U32) (signals : List (ThreatLevel × U64)) : Prop :=
  (HoldsSlot t p → stateFor t p = ownState p signals) ∧ (signals = [] → ¬ HoldsSlot t p)

/-- A pid that holds its slot, or has not signalled yet, is judged by its own state. -/
theorem Faithful.stateFor_eq {t : PolicyTable} {p : U32} {signals : List (ThreatLevel × U64)} (h : Faithful t p signals)
    (hkept : signals ≠ [] → HoldsSlot t p) : stateFor t p = ownState p signals := by
  by_cases hnil : signals = []
  · rw [stateFor_of_not_holds (h.2 hnil), hnil]
    rfl
  · exact h.1 (hkept hnil)

theorem faithful_step {t : PolicyTable} (hone : OneSlotEach t) {p : U32} {signals : List (ThreatLevel × U64)}
    (h : Faithful t p signals) (op : BridgeOp) (hkept : op.signalFor p ≠ none → signals ≠ [] → HoldsSlot t p) :
    Faithful (policyStep t op) p (signals ++ (op.signalFor p).toList) := by
  rcases policyStep_cases p t op with ⟨hsignal, hsame | ⟨pid, requested, nowNs, hp, hstep⟩⟩ |
    ⟨requested, nowNs, -, hsignal, hstep⟩
  · rw [hsame, hsignal, Option.toList_none, List.append_nil]
    exact h
  · -- a signal of another pid takes the slot away or leaves it as it is
    rw [hstep, hsignal, Option.toList_none, List.append_nil]
    constructor
    · intro hholds
      obtain ⟨hbefore, hstate⟩ := step_other requested nowNs hone hp hholds
      rw [hstate, h.1 hbefore]
    · intro hnil hholds
      exact h.2 hnil (step_other requested nowNs hone hp hholds).1
  · have hstate := h.stateFor_eq (hkept (by simp [hsignal]))
    rw [hstep, hsignal]
    constructor
    · intro _
      rw [(step_own requested nowNs hone).2, hstate]
      exact (ownState_snoc p signals (requested, nowNs)).symm
    · intro hnil
      simp at hnil

theorem KeepsSlot.of_snoc {p : U32} {ops : List BridgeOp} {op : BridgeOp} (h : KeepsSlot p (ops ++ [op])) :
    KeepsSlot p ops ∧ (op.signalFor p ≠ none → signalsOf p ops ≠ [] → HoldsSlot (policyRun ops) p) := by
  refine ⟨?_, ?_⟩
  · intro pre op' post hsplit
    refine h pre op' (post ++ [op]) ?_
    rw [hsplit, List.append_assoc, List.cons_append]
  · exact h ops op [] rfl

theorem KeepsSlot.faithful {p : U32} {ops : List BridgeOp} (h : KeepsSlot p ops) :
    Faithful (policyRun ops) p (signalsOf p ops) := by
  induction ops using List.reverseRecOn with
  | nil =>
    refine ⟨?_, ?_⟩
    · rintro ⟨i, hi⟩
      cases hi.1
    · rintro - ⟨i, hi⟩
      cases hi.1
  | append_singleton ops op ih =>
    rw [policyRun_snoc, signalsOf_snoc]
    exact faithful_step (policyRun_oneSlotEach ops) (ih h.of_snoc.1) op h.of_snoc.2

theorem verdictsFor_of_keepsSlot {p : U32} {ops : List BridgeOp} (h : KeepsSlot p ops) :
    verdictsFor p ops = ownVerdicts p (signalsOf p ops) := by
  induction ops using List.reverseRecOn with
  | nil => rfl
  | append_singleton ops op ih =>
    obtain ⟨hbefore, hlast⟩ := h.of_snoc
    rw [verdictsFor_snoc, signalsOf_snoc, ih hbefore]
    cases hsignal : op.signalFor p with
    | none => rw [Option.toList_none, List.map_nil, List.append_nil, List.append_nil]
    | some signal =>
      rw [hbefore.faithful.stateFor_eq (hlast (by simp [hsignal]))]
      exact (ownVerdicts_snoc p (signalsOf p ops) signal).symm

/-- A judged slot holds the effective level: never the zeroed one. -/
theorem judge_lastEffective (state : PidPolicyState) {requested : ThreatLevel} (hrequested : requested ≠ .clean)
    (nowNs : U64) : (judge state requested nowNs).2.lastEffectiveThreat ≠ .clean := by
  have heffective : (judge state requested nowNs).2.lastEffectiveThreat = (applyBurst state requested nowNs).2.1 := by
    unfold judge
    dsimp only
    split
    next hdup => exact (of_decide_eq_true hdup).1.symm
    · rfl
  rw [heffective]
  unfold applyBurst
  split
  · dsimp only
    split
    · exact ThreatLevel.noConfusion
    · exact hrequested
  · exact hrequested

theorem ownState_ne_fresh {p : U32} {ops : List BridgeOp} (h : signalsOf p ops ≠ []) :
    ownState p (signalsOf p ops) ≠ freshState p := by
  induction ops using List.reverseRecOn with
  | nil => exact absurd rfl h
  | append_singleton ops op ih =>
    rw [signalsOf_snoc] at h ⊢
    rcases policyStep_cases p (policyRun ops) op with ⟨hsignal, -⟩ | ⟨requested, nowNs, hrequested, hsignal, -⟩
    · rw [hsignal, Option.toList_none, List.append_nil] at h ⊢
      exact ih h
    · intro heq
      have hlevel := judge_lastEffective (ownState p (signalsOf p ops)) hrequested nowNs
      rw [hsignal, Option.toList_some, ownState_snoc] at heq
      exact hlevel (by rw [heq]; rfl)

/-! How many pids the table has room for. -/

def usedSlots (t : PolicyTable) : Finset (Fin pidPolicyTableSize) := Finset.univ.filter fun i => (t i).used = true

def pidsOf (ops : List BridgeOp) : Finset U32 := (ops.filterMap fun op => op.signal?.map (·.pid)).toFinset

theorem pidsOf_snoc (ops : List BridgeOp) (op : BridgeOp) :
    pidsOf (ops ++ [op]) = pidsOf ops ∪ (op.signal?.map (·.pid)).toFinset := by
  ext q
  simp only [pidsOf, List.filterMap_append, List.toFinset_append, Finset.mem_union, List.mem_toFinset,
    List.mem_filterMap, List.mem_singleton, exists_eq_left, Option.mem_toFinset, Option.mem_def]

theorem card_usedSlots_full {t : PolicyTable} (hfull : ∀ j, (t j).used = true) : (usedSlots t).card = pidPolicyTableSize := by
  rw [usedSlots, Finset.filter_true_of_mem (fun j _ => hfull j), Finset.card_univ, Fintype.card_fin]

/-- Where the pid has a slot or a slot is free, nobody loses theirs. -/
theorem step_evicts_none {t : PolicyTable} {pid : U32} (hroom : HoldsSlot t pid ∨ (usedSlots t).card < pidPolicyTableSize)
    (requested : ThreatLevel) (nowNs : U64) :
    ∃ i state, (applyThreatPolicy t pid requested nowNs).policyTable = Function.update t i state ∧
      state.Serves pid ∧ ((t i).Serves pid ∨ (t i).used = false) := by
  obtain ⟨i, htable, hnew, hcase⟩ := applyThreatPolicy_cases t pid requested nowNs
  refine ⟨i, _, htable, hnew, ?_⟩
  rcases hcase with ⟨hserves, -⟩ | ⟨hmissing, -, hunused | ⟨hfull, -⟩⟩
  · exact Or.inl hserves
  · exact Or.inr hunused
  · have hcard := card_usedSlots_full hfull
    rcases hroom with hholds | hlt
    · exact absurd hholds hmissing
    · omega

section noEviction
variable {t : PolicyTable} {q : U32} {i : Fin pidPolicyTableSize} {state : PidPolicyState}

theorem serves_update (hnew : state.Serves q) (hold : (t i).Serves q ∨ (t i).used = false) {j : Fin pidPolicyTableSize}
    {p : U32} (h : (t j).Serves p) : (Function.update t i state j).Serves p := by
  by_cases hj : j = i
  · subst hj
    rw [Function.update_self]
    rcases hold with hq | hunused
    · rw [← h.2, hq.2]
      exact hnew
    · exact absurd h.1 (by rw [hunused]; exact Bool.noConfusion)
  · rw [Function.update_of_ne hj]
    exact h

theorem holdsSlot_update (hnew : state.Serves q) (hold : (t i).Serves q ∨ (t i).used = false) (p : U32) :
    HoldsSlot (Function.update t i state) p ↔ HoldsSlot t p ∨ q = p := by
  constructor
  · rintro ⟨j, hj⟩
    by_cases hji : j = i
    · rw [hji, Function.update_self] at hj
      exact Or.inr (hnew.2.symm.trans hj.2)
    · rw [Function.update_of_ne hji] at hj
      exact Or.inl ⟨j, hj⟩
  · rintro (⟨j, hj⟩ | rfl)
    · exact ⟨j, serves_update hnew hold hj⟩
    · exact ⟨i, by rw [Function.update_self]; exact hnew⟩

end noEviction

/-- No more slots than pids. -/
theorem card_usedSlots_le {t : PolicyTable} (hone : OneSlotEach t) {pids : Finset U32}
    (h : ∀ q, HoldsSlot t q → q ∈ pids) : (usedSlots t).card ≤ pids.card := by
  refine Finset.card_le_card_of_injOn (fun i => (t i).pid) ?_ ?_
  · intro i hi
    exact h _ ⟨i, (Finset.mem_filter.mp hi).2, rfl⟩
  · intro i hi j hj heq
    exact hone i j (t i).pid ⟨(Finset.mem_filter.mp hi).2, rfl⟩ ⟨(Finset.mem_filter.mp hj).2, heq.symm⟩

theorem le_card_usedSlots {t : PolicyTable} {pids : Finset U32} (h : ∀ q ∈ pids, HoldsSlot t q) :
    pids.card ≤ (usedSlots t).card := by
  have : Nonempty (Fin pidPolicyTableSize) := ⟨⟨0, by decide⟩⟩
  choose! slot hslot using h
  refine Finset.card_le_card_of_injOn slot ?_ ?_
  · intro q hq
    exact Finset.mem_filter.mpr ⟨Finset.mem_univ _, (hslot q hq).1⟩
  · intro q hq r hr heq
    rw [← (hslot q hq).2, heq, (hslot r hr).2]

/-- The signal of one of at most 1024 pids finds its slot or a free one. -/
theorem signal_has_room {t : PolicyTable} (hone : OneSlotEach t) {pids : Finset U32}
    (hholds : ∀ q, HoldsSlot t q ↔ q ∈ pids) {q : U32} (hcard : (pids ∪ {q}).card ≤ pidPolicyTableSize) :
    HoldsSlot t q ∨ (usedSlots t).card < pidPolicyTableSize := by
  by_cases hq : q ∈ pids
  · exact Or.inl ((hholds q).mpr hq)
  · refine Or.inr ?_
    have hused := card_usedSlots_le hone fun r hr => (hholds r).mp hr
    rw [Finset.union_comm, ← Finset.insert_eq, Finset.card_insert_of_notMem hq] at hcard
    omega

theorem pidsOf_subset_append (pre rest : List BridgeOp) : pidsOf pre ⊆ pidsOf (pre ++ rest) := by
  intro q hq
  simp only [pidsOf, List.filterMap_append, List.toFinset_append, Finset.mem_union]
  exact Or.inl hq

theorem holdsSlot_iff_of_few_pids {ops : List BridgeOp} (hfew : (pidsOf ops).card ≤ pidPolicyTableSize) (q : U32) :
    HoldsSlot (policyRun ops) q ↔ q ∈ pidsOf ops := by
  induction ops using List.reverseRecOn generalizing q with
  | nil =>
    constructor
    · rintro ⟨i, hi⟩
      cases hi.1
    · intro hq
      exact absurd hq (Finset.notMem_empty q)
  | append_singleton ops op ih =>
    have hbefore := ih ((Finset.card_le_card (pidsOf_subset_append ops [op])).trans hfew)
    rw [pidsOf_snoc] at hfew ⊢
    rw [policyRun_snoc, policyStep]
    cases hsignal : op.signal? with
    | none => simpa using hbefore q
    | some signal =>
      rw [hsignal] at hfew
      have hroom := signal_has_room (policyRun_oneSlotEach ops) hbefore (q := signal.pid) (by simpa using hfew)
      obtain ⟨i, state, htable, hnew, hold⟩ := step_evicts_none hroom signal.requested signal.nowNs
      dsimp only
      rw [htable, holdsSlot_update hnew hold, hbefore q]
      simp [eq_comm, or_comm]

/-- With at most 1024 pids nobody loses a slot. -/
theorem keepsSlot_of_few_pids {ops : List BridgeOp} (hfew : (pidsOf ops).card ≤ pidPolicyTableSize) (p : U32) :
    KeepsSlot p ops := by
  intro pre op post hsplit _ hsignalled
  have hpre : (pidsOf pre).card ≤ pidPolicyTableSize := by
    rw [hsplit] at hfew
    exact (Finset.card_le_card (pidsOf_subset_append pre (op :: post))).trans hfew
  rw [holdsSlot_iff_of_few_pids hpre]
  obtain ⟨signal, hmem⟩ := List.exists_mem_of_ne_nil _ hsignalled
  obtain ⟨op', hop', hfor⟩ := List.mem_filterMap.mp hmem
  rw [pidsOf, List.mem_toFinset, List.mem_filterMap]
  refine ⟨op', hop', ?_⟩
  rw [BridgeOp.signalFor, Option.bind_eq_some_iff] at hfor
  obtain ⟨sig, hsig, hpid⟩ := hfor
  split at hpid
  next heq => rw [hsig, Option.map_some, heq]
  · cases hpid

/-- **Independence of the other pids.** The policy table is a function of the signals. Two histories
    with the same signals for a pid judge it alike, if both leave it its slot, as every history of
    at most 1024 pids does; and leaving it its slot is the same as judging each of its signals by
    the state its own earlier signals gave. -/
theorem verdicts_independent (p : U32) :
    (∀ env vmiAlertMap ops, (bridgeRun env vmiAlertMap ops).policyTable = policyRun ops) ∧
      (∀ ops₁ ops₂, signalsOf p ops₁ = signalsOf p ops₂ → KeepsSlot p ops₁ → KeepsSlot p ops₂ →
        verdictsFor p ops₁ = verdictsFor p ops₂) ∧
      (∀ ops, (pidsOf ops).card ≤ pidPolicyTableSize → KeepsSlot p ops) ∧
      ∀ ops, KeepsSlot p ops ↔ ∀ pre op post, ops = pre ++ op :: post → op.signalFor p ≠ none →
        stateFor (policyRun pre) p = ownState p (signalsOf p pre) := by
  refine ⟨bridgeRun_policyTable, ?_, fun ops hfew => keepsSlot_of_few_pids hfew p, ?_⟩
  · intro ops₁ ops₂ hsame h₁ h₂
    rw [verdictsFor_of_keepsSlot h₁, verdictsFor_of_keepsSlot h₂, hsame]
  · intro ops
    constructor
    · intro hkept pre op post hsplit hop
      have hpre : KeepsSlot p pre := by
        intro pre' op' post' hsplit'
        refine hkept pre' op' (post' ++ op :: post) ?_
        rw [hsplit, hsplit', List.append_assoc, List.cons_append]
      exact hpre.faithful.stateFor_eq (hkept pre op post hsplit hop)
    · intro hstate pre op post hsplit hop hsignalled
      -- without its slot the pid would start over, and a state with signals behind it is not fresh
      by_contra hlost
      have heq := hstate pre op post hsplit hop
      rw [stateFor_of_not_holds hlost] at heq
      exact ownState_ne_fresh hsignalled heq.symm

/-- A pid stays in its slot while at most 1024 pids have signalled. -/
theorem serves_of_few_pids {pre rest : List BridgeOp} (hfew : (pidsOf (pre ++ rest)).card ≤ pidPolicyTableSize)
    {i : Fin pidPolicyTableSize} {p : U32} (h : (policyRun pre i).Serves p) : (policyRun (pre ++ rest) i).Serves p := by
  induction rest using List.reverseRecOn with
  | nil => rwa [List.append_nil]
  | append_singleton rest op ih =>
    rw [← List.append_assoc] at hfew ⊢
    have hbefore := (Finset.card_le_card (pidsOf_subset_append (pre ++ rest) [op])).trans hfew
    have hserves := ih hbefore
    rw [pidsOf_snoc] at hfew
    rw [policyRun_snoc, policyStep]
    cases hsignal : op.signal? with
    | none => exact hserves
    | some signal =>
      rw [hsignal] at hfew
      have hroom := signal_has_room (policyRun_oneSlotEach (pre ++ rest)) (holdsSlot_iff_of_few_pids hbefore)
        (q := signal.pid) (by simpa using hfew)
      obtain ⟨j, state, htable, hnew, hold⟩ := step_evicts_none hroom signal.requested signal.nowNs
      dsimp only
      rw [htable]
      exact serves_update hnew hold hserves

/-- **Eviction.** Once 1024 pids have signalled, the next new pid takes the slot of the pid that
    sits where it is assigned. -/
theorem evicts_assigned_slot {ops : List BridgeOp} (hfull : (pidsOf ops).card = pidPolicyTableSize) {p q : U32}
    {i : Fin pidPolicyTableSize} (hp : (policyRun ops i).Serves p) (hq : q ∉ pidsOf ops)
    (hi : i.val = q.toNat % pidPolicyTableSize) (requested : ThreatLevel) (nowNs : U64) :
    ¬ HoldsSlot (applyThreatPolicy (policyRun ops) q requested nowNs).policyTable p := by
  have hholds := holdsSlot_iff_of_few_pids hfull.le
  have hone := policyRun_oneSlotEach ops
  have hmissing : ¬ HoldsSlot (policyRun ops) q := fun h => hq ((hholds q).mp h)
  have hcard : (usedSlots (policyRun ops)).card = pidPolicyTableSize := by
    have hle := card_usedSlots_le hone fun r hr => (hholds r).mp hr
    have hge := le_card_usedSlots fun r hr => (hholds r).mpr hr
    omega
  have hused : ∀ j, (policyRun ops j).used = true := by
    intro j
    have huniv := Finset.eq_univ_of_card (usedSlots (policyRun ops)) (by rw [hcard, Fintype.card_fin])
    have hj : j ∈ usedSlots (policyRun ops) := huniv ▸ Finset.mem_univ j
    exact (Finset.mem_filter.mp hj).2
  obtain ⟨j, htable, hnew, hcase⟩ := applyThreatPolicy_cases (policyRun ops) q requested nowNs
  -- the new pid has no slot and none is free: it gets the one at its pid modulo the size
  rcases hcase with ⟨hserves, -⟩ | ⟨-, -, hunused | ⟨-, hj⟩⟩
  · exact absurd ⟨j, hserves⟩ hmissing
  · rw [hused j] at hunused
    cases hunused
  · obtain rfl : j = i := Fin.ext (hj.trans hi.symm)
    rw [htable]
    rintro ⟨k, hk⟩
    by_cases hkj : k = j
    · rw [hkj, Function.update_self] at hk
      refine hmissing ⟨j, ?_⟩
      rw [hnew.2.symm.trans hk.2]
      exact hp
    · rw [Function.update_of_ne hkj] at hk
      exact hkj (hone k j p hk hp)

/-! A victim and 1024 other pids. -/

/-- A suspicious signal at a time in milliseconds. -/
def suspiciousAt (pid : U32) (ms : U64) : BridgeOp :=
  .signalSuspicious pid none (ms * 1000000) (ms * 1000000)

/-- One suspicious signal of each of the pids 1025, 1026, … -/
def flood (n : Nat) : List BridgeOp := (List.range n).map fun k => suspiciousAt (BitVec.ofNat 32 (1025 + k)) 2500

/-- Pid 7 is suspicious at 1, 2 and 3 s; pids 1025 to 2048 are in between. -/
def floodedHistory : List BridgeOp :=
  [suspiciousAt 7 1000, suspiciousAt 7 2000] ++ flood 1024 ++ [suspiciousAt 7 3000]

def quietHistory : List BridgeOp := [suspiciousAt 7 1000, suspiciousAt 7 2000, suspiciousAt 7 3000]

theorem policyStep_suspiciousAt (t : PolicyTable) (pid : U32) (ms : U64) :
    policyStep t (suspiciousAt pid ms) = (applyThreatPolicy t pid .suspicious (ms * 1000000)).policyTable := rfl

theorem flood_succ (n : Nat) : flood (n + 1) = flood n ++ [suspiciousAt (BitVec.ofNat 32 (1025 + n)) 2500] := by
  rw [flood, List.range_succ, List.map_append, flood]
  rfl

theorem floodPid_toNat {k : Nat} (hk : k < 1024) : (BitVec.ofNat 32 (1025 + k) : U32).toNat = 1025 + k := by
  rw [BitVec.toNat_ofNat, Nat.mod_eq_of_lt (by omega)]

theorem floodPid_ne {k : Nat} (hk : k < 1024) : (BitVec.ofNat 32 (1025 + k) : U32) ≠ 7 := by
  intro heq
  have hnat := floodPid_toNat hk
  rw [heq] at hnat
  exact absurd hnat (by simp only [BitVec.reduceToNat]; omega)

theorem pidsOf_flood (n : Nat) :
    pidsOf ([suspiciousAt 7 1000, suspiciousAt 7 2000] ++ flood n) =
      insert 7 ((Finset.range n).image fun k => (BitVec.ofNat 32 (1025 + k) : U32)) := by
  ext q
  simp [pidsOf, flood, suspiciousAt, BridgeOp.signal?]

theorem card_pidsOf_flood {n : Nat} (hn : n ≤ 1024) :
    (pidsOf ([suspiciousAt 7 1000, suspiciousAt 7 2000] ++ flood n)).card = n + 1 := by
  have hinj : Set.InjOn (fun k => (BitVec.ofNat 32 (1025 + k) : U32)) (Finset.range n) := by
    intro a ha b hb heq
    have hnat := congrArg BitVec.toNat heq
    simp only [Finset.coe_range, Set.mem_Iio] at ha hb
    simp only [floodPid_toNat (lt_of_lt_of_le ha hn), floodPid_toNat (lt_of_lt_of_le hb hn)] at hnat
    exact Nat.add_left_cancel hnat
  have hseven : (7 : U32) ∉ (Finset.range n).image fun k => (BitVec.ofNat 32 (1025 + k) : U32) := by
    intro hmem
    obtain ⟨k, hk, heq⟩ := Finset.mem_image.mp hmem
    exact floodPid_ne (lt_of_lt_of_le (Finset.mem_range.mp hk) hn) heq
  rw [pidsOf_flood, Finset.card_insert_of_notMem hseven, Finset.card_image_of_injOn hinj, Finset.card_range]

theorem next_notMem_flood {n : Nat} (hn : n < 1024) :
    (BitVec.ofNat 32 (1025 + n) : U32) ∉ pidsOf ([suspiciousAt 7 1000, suspiciousAt 7 2000] ++ flood n) := by
  rw [pidsOf_flood, Finset.mem_insert, not_or]
  refine ⟨floodPid_ne hn, ?_⟩
  intro hmem
  obtain ⟨k, hk, heq⟩ := Finset.mem_image.mp hmem
  have hkn := Finset.mem_range.mp hk
  have hnat := congrArg BitVec.toNat heq
  rw [floodPid_toNat hn, floodPid_toNat (hkn.trans hn)] at hnat
  omega

theorem signalsOf_flood {n : Nat} (hn : n ≤ 1024) : signalsOf 7 (flood n) = [] := by
  rw [signalsOf, List.filterMap_eq_nil_iff]
  intro op hop
  obtain ⟨k, hk, rfl⟩ := List.mem_map.mp hop
  have hne := floodPid_ne (lt_of_lt_of_le (List.mem_range.mp hk) hn)
  rw [suspiciousAt, BridgeOp.signalFor, BridgeOp.signal?, Option.bind_some, if_neg hne]

def timesOf (ops : List BridgeOp) : List U64 := ops.filterMap fun op => op.signal?.map (·.nowNs)

theorem timesOf_append (ops rest : List BridgeOp) : timesOf (ops ++ rest) = timesOf ops ++ timesOf rest :=
  List.filterMap_append

theorem timesOf_flood (n : Nat) : timesOf (flood n) = List.replicate n (2500 * 1000000) := by
  induction n with
  | zero => rfl
  | succ n ih => rw [flood_succ, timesOf_append, ih, List.replicate_succ']; rfl

theorem timesOf_floodedHistory : (timesOf floodedHistory).Pairwise (· ≤ ·) := by
  rw [floodedHistory, timesOf_append, timesOf_append, timesOf_flood]
  generalize 1024 = n
  suffices h : ∀ early ∈ [(1000000000 : U64), 2000000000], ∀ late, ¬ n = 0 ∧ late = 2500000000 ∨ late = 3000000000 →
      early ≤ late by
    simpa [List.pairwise_append, timesOf, suspiciousAt, BridgeOp.signal?] using h
  rintro early hearly late (⟨-, rfl⟩ | rfl)
  · exact (List.forall_iff_forall_mem (p := (· ≤ 2500000000))).mp (by decide) early hearly
  · exact (List.forall_iff_forall_mem (p := (· ≤ 3000000000))).mp (by decide) early hearly

/-- After the flood pid 7 has no slot: it took slot 0, the pids up to 2047 took the others, and
    pid 2048 took slot 0 again. -/
theorem flood_evicts : ¬ HoldsSlot (policyRun ([suspiciousAt 7 1000, suspiciousAt 7 2000] ++ flood 1024)) 7 := by
  have hslot : (policyRun [suspiciousAt 7 1000, suspiciousAt 7 2000] ⟨0, by decide⟩).Serves 7 := by decide +kernel
  have hcard := card_pidsOf_flood (n := 1023) (by decide)
  have hserves := serves_of_few_pids hcard.le hslot
  have hnew := next_notMem_flood (n := 1023) (by decide)
  rw [flood_succ, ← List.append_assoc, policyRun_snoc, policyStep_suspiciousAt]
  exact evicts_assigned_slot hcard hserves hnew (by decide) .suspicious (2500 * 1000000)

/-- **A burst is forgotten.** The third suspicious signal of the pid is escalated, but not where
    1024 other pids have signalled before it: the last of them took its slot. -/
theorem eviction_resets_burst :
    signalsOf 7 floodedHistory = signalsOf 7 quietHistory ∧
      (timesOf floodedHistory).Pairwise (· ≤ ·) ∧ (timesOf quietHistory).Pairwise (· ≤ ·) ∧
      (verdictsFor 7 quietHistory).getLast? = some ⟨.malicious, false, true⟩ ∧
      (verdictsFor 7 floodedHistory).getLast? = some ⟨.suspicious, false, false⟩ := by
  refine ⟨?_, timesOf_floodedHistory, by decide +kernel, by decide +kernel, ?_⟩
  · rw [floodedHistory, signalsOf_append, signalsOf_append, signalsOf_flood le_rfl, List.append_nil]
    decide +kernel
  · rw [floodedHistory, verdictsFor_snoc, stateFor_of_not_holds flood_evicts, List.getLast?_append]
    simp only [suspiciousAt, BridgeOp.signalFor, BridgeOp.signal?, Option.bind_some, if_true, Option.toList_some,
      List.map_cons, List.map_nil, List.getLast?_singleton, Option.some_or]
    decide +kernel

end SentinelStack.Vmi
