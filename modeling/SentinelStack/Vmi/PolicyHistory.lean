import SentinelStack.Vmi.ThreatPolicy

/- What the threat policy's verdicts say about the past (`apply_threat_policy` in
   `bridge.c`), for any number of pids: slots are taken, lost and taken again.

   The slot a pid is judged by is the zeroed one, or the one its last signal left
   (`stateFor_inv`): so a verdict can only rest on the pid's own signals. Main
   results: `suppression_justified` — a suppressed signal repeats the level of a
   signal of the pid accepted less than a second before; `escalation_sound` — an
   escalated one is the third suspicious signal of the pid within ten seconds, or a
   later one; `escalation_complete_iff` — of three suspicious signals within ten
   seconds the third is escalated exactly if the escalation window was not opened
   anew at it or at the one before: the window is anchored at the signal that
   opened it and does not slide. -/
namespace SentinelStack.Vmi
open SentinelStack.Lib

/-! The slot of a pid, along a history. -/

/-- What a call does to the slot a pid is judged by. -/
theorem stateFor_snoc (p : U32) (ops : List BridgeOp) (op : BridgeOp) :
    (op.signalFor p = none ∧ (stateFor (policyRun (ops ++ [op])) p = stateFor (policyRun ops) p ∨
        stateFor (policyRun (ops ++ [op])) p = freshState p)) ∨
      ∃ requested nowNs, requested ≠ .clean ∧ op.signalFor p = some (requested, nowNs) ∧
        stateFor (policyRun (ops ++ [op])) p = (judge (stateFor (policyRun ops) p) requested nowNs).2 := by
  have hone := policyRun_oneSlotEach ops
  rw [policyRun_snoc]
  rcases policyStep_cases p (policyRun ops) op with ⟨hsignal, hsame | ⟨pid, requested, nowNs, hp, hstep⟩⟩ |
    ⟨requested, nowNs, hrequested, hsignal, hstep⟩
  · exact Or.inl ⟨hsignal, Or.inl (by rw [hsame])⟩
  · refine Or.inl ⟨hsignal, ?_⟩
    rw [hstep]
    by_cases hholds : HoldsSlot (applyThreatPolicy (policyRun ops) pid requested nowNs).policyTable p
    · exact Or.inl (step_other requested nowNs hone hp hholds).2
    · exact Or.inr (stateFor_of_not_holds hholds)
  · refine Or.inr ⟨requested, nowNs, hrequested, hsignal, ?_⟩
    rw [hstep, (step_own requested nowNs hone).2]

/-- **The rule for a pid's slot.** What holds of the zeroed slot, survives the calls that do not
    concern the pid and is kept by its own signals holds of the slot it is judged by. -/
theorem stateFor_inv (p : U32) {I : List BridgeOp → PidPolicyState → Prop} (hfresh : ∀ ops, I ops (freshState p))
    (hframe : ∀ ops op state, op.signalFor p = none → I ops state → I (ops ++ [op]) state)
    (hown : ∀ ops op requested nowNs, requested ≠ .clean → op.signalFor p = some (requested, nowNs) →
      I ops (stateFor (policyRun ops) p) → I (ops ++ [op]) (judge (stateFor (policyRun ops) p) requested nowNs).2)
    (ops : List BridgeOp) : I ops (stateFor (policyRun ops) p) := by
  induction ops using List.reverseRecOn with
  | nil =>
    have hnone : ¬ HoldsSlot (policyRun []) p := by
      rintro ⟨i, hi⟩
      cases hi.1
    rw [stateFor_of_not_holds hnone]
    exact hfresh []
  | append_singleton ops op ih =>
    rcases stateFor_snoc p ops op with ⟨hsignal, hsame | hlost⟩ | ⟨requested, nowNs, hrequested, hsignal, hstep⟩
    · rw [hsame]
      exact hframe ops op _ hsignal ih
    · rw [hlost]
      exact hfresh _
    · rw [hstep]
      exact hown ops op requested nowNs hrequested hsignal ih

/-! Suppression. -/

theorem applyThreatPolicy_suppressEmit (t : PolicyTable) (pid : U32) (requested : ThreatLevel) (nowNs : U64) :
    (applyThreatPolicy t pid requested nowNs).suppressEmit = (judge (stateFor t pid) requested nowNs).1.suppressEmit :=
  congrArg PolicyVerdict.suppressEmit (applyThreatPolicy_verdict t pid requested nowNs)

theorem applyThreatPolicy_effective (t : PolicyTable) (pid : U32) (requested : ThreatLevel) (nowNs : U64) :
    (applyThreatPolicy t pid requested nowNs).effective = (judge (stateFor t pid) requested nowNs).1.effective :=
  congrArg PolicyVerdict.effective (applyThreatPolicy_verdict t pid requested nowNs)

theorem applyBurst_keeps_emission (state : PidPolicyState) (requested : ThreatLevel) (nowNs : U64) :
    (applyBurst state requested nowNs).1.lastEffectiveThreat = state.lastEffectiveThreat ∧
      (applyBurst state requested nowNs).1.lastEmitNs = state.lastEmitNs := by
  unfold applyBurst countSuspicious
  dsimp only
  repeat' split
  all_goals exact ⟨rfl, rfl⟩

/-- A suppressed signal repeats the level in the slot within a second, and leaves it there. -/
theorem judge_suppressed {state : PidPolicyState} {requested : ThreatLevel} {nowNs : U64}
    (h : (judge state requested nowNs).1.suppressEmit = true) :
    (judge state requested nowNs).1.effective = state.lastEffectiveThreat ∧
      nowNs - state.lastEmitNs < policyDedupWindowNs ∧
      (judge state requested nowNs).2.lastEffectiveThreat = state.lastEffectiveThreat ∧
      (judge state requested nowNs).2.lastEmitNs = state.lastEmitNs := by
  obtain ⟨hlevel, hemit⟩ := applyBurst_keeps_emission state requested nowNs
  have hdup := of_decide_eq_true h
  have hstate : (judge state requested nowNs).2 = (applyBurst state requested nowNs).1 := if_pos h
  rw [hlevel, hemit] at hdup
  rw [hstate, hlevel, hemit]
  exact ⟨hdup.1, hdup.2.1, rfl, rfl⟩

/-- An accepted signal leaves its level and its time in the slot. -/
theorem judge_accepted {state : PidPolicyState} {requested : ThreatLevel} {nowNs : U64}
    (h : (judge state requested nowNs).1.suppressEmit = false) :
    (judge state requested nowNs).2.lastEffectiveThreat = (judge state requested nowNs).1.effective ∧
      (judge state requested nowNs).2.lastEmitNs = nowNs := by
  have hstate : (judge state requested nowNs).2 = { (applyBurst state requested nowNs).1 with
      lastEffectiveThreat := (applyBurst state requested nowNs).2.1, lastEmitNs := nowNs } :=
    if_neg (ne_true_of_eq_false h)
  rw [hstate]
  exact ⟨rfl, rfl⟩

/-- Requests are never clean, so neither are effective levels. -/
theorem judge_effective_ne_clean (state : PidPolicyState) {requested : ThreatLevel} (hrequested : requested ≠ .clean)
    (nowNs : U64) : (judge state requested nowNs).1.effective ≠ .clean := by
  have hlevel := judge_lastEffective state hrequested nowNs
  cases hsuppress : (judge state requested nowNs).1.suppressEmit with
  | true =>
    obtain ⟨heffective, -, hkept, -⟩ := judge_suppressed hsuppress
    rwa [heffective, ← hkept]
  | false => rwa [← (judge_accepted hsuppress).1]

/-- The history has a signal for the pid that was accepted at this level and time. -/
def AcceptedBefore (p : U32) (ops : List BridgeOp) (level : ThreatLevel) (t : U64) : Prop :=
  ∃ pre op post requested, ops = pre ++ op :: post ∧ op.signalFor p = some (requested, t) ∧
    (judge (stateFor (policyRun pre) p) requested t).1.suppressEmit = false ∧
    (judge (stateFor (policyRun pre) p) requested t).1.effective = level

theorem AcceptedBefore.snoc {p : U32} {ops : List BridgeOp} {level : ThreatLevel} {t : U64}
    (h : AcceptedBefore p ops level t) (op : BridgeOp) : AcceptedBefore p (ops ++ [op]) level t := by
  obtain ⟨pre, op', post, requested, hsplit, hrest⟩ := h
  refine ⟨pre, op', post ++ [op], requested, ?_, hrest⟩
  rw [hsplit, List.append_assoc, List.cons_append]

/-- The level and the time in a slot are those of an accepted signal of its pid. -/
theorem slot_emission (p : U32) (ops : List BridgeOp) :
    (stateFor (policyRun ops) p).lastEffectiveThreat = .clean ∨
      AcceptedBefore p ops (stateFor (policyRun ops) p).lastEffectiveThreat (stateFor (policyRun ops) p).lastEmitNs := by
  refine stateFor_inv p (I := fun ops state => state.lastEffectiveThreat = .clean ∨
    AcceptedBefore p ops state.lastEffectiveThreat state.lastEmitNs) ?_ ?_ ?_ ops
  · intro ops
    exact Or.inl rfl
  · intro ops op state _ h
    exact h.imp_right fun haccepted => haccepted.snoc op
  · intro ops op requested nowNs _ hsignal h
    cases hsuppress : (judge (stateFor (policyRun ops) p) requested nowNs).1.suppressEmit with
    | true =>
      obtain ⟨-, -, hlevel, hemit⟩ := judge_suppressed hsuppress
      rw [hlevel, hemit]
      exact h.imp_right fun haccepted => haccepted.snoc op
    | false =>
      obtain ⟨hlevel, hemit⟩ := judge_accepted hsuppress
      rw [hlevel, hemit]
      exact Or.inr ⟨ops, op, [], requested, rfl, hsignal, hsuppress, rfl⟩

theorem mem_timesOf_of_signalFor {p : U32} {ops : List BridgeOp} {op : BridgeOp} {requested : ThreatLevel} {t : U64}
    (hop : op ∈ ops) (h : op.signalFor p = some (requested, t)) : t ∈ timesOf ops := by
  refine List.mem_filterMap.mpr ⟨op, hop, ?_⟩
  rw [BridgeOp.signalFor, Option.bind_eq_some_iff] at h
  obtain ⟨signal, hsignal, hpid⟩ := h
  split at hpid
  · cases hpid
    rw [hsignal, Option.map_some]
  · cases hpid

/-- The reading of the last call is the latest. -/
theorem times_le_last {p : U32} {ops : List BridgeOp} {op : BridgeOp} {requested : ThreatLevel} {t : U64}
    (hclock : (timesOf (ops ++ [op])).Pairwise (· ≤ ·)) (h : op.signalFor p = some (requested, t)) :
    ∀ t' ∈ timesOf ops, t' ≤ t := by
  intro t' ht'
  rw [timesOf_append, List.pairwise_append] at hclock
  exact hclock.2.2 t' ht' t (mem_timesOf_of_signalFor (List.mem_singleton.mpr rfl) h)

/-- **Suppression is justified.** -/
theorem suppression_justified (env : MapEnv) (vmiAlertMap : U32 → Option ThreatLevel) (p : U32) (pre : List BridgeOp)
    (op : BridgeOp) (requested : ThreatLevel) (t : U64) (hclock : (timesOf (pre ++ [op])).Pairwise (· ≤ ·))
    (hsignal : op.signalFor p = some (requested, t))
    (hsuppress : (applyThreatPolicy (bridgeRun env vmiAlertMap pre).policyTable p requested t).suppressEmit = true) :
    ∃ pre' op' post' requested' t', pre = pre' ++ op' :: post' ∧ op'.signalFor p = some (requested', t') ∧
      (applyThreatPolicy (bridgeRun env vmiAlertMap pre').policyTable p requested' t').suppressEmit = false ∧
      (applyThreatPolicy (bridgeRun env vmiAlertMap pre').policyTable p requested' t').effective =
        (applyThreatPolicy (bridgeRun env vmiAlertMap pre).policyTable p requested t).effective ∧
      t' ≤ t ∧ t.toNat - t'.toNat < 1000000000 := by
  have hrequested : requested ≠ .clean := by
    rcases policyStep_cases p (policyRun pre) op with ⟨hnone, -⟩ | ⟨level, nowNs, hlevel, hsome, -⟩
    · rw [hnone] at hsignal
      cases hsignal
    · rw [hsome] at hsignal
      cases hsignal
      exact hlevel
  simp only [bridgeRun_policyTable, applyThreatPolicy_suppressEmit, applyThreatPolicy_effective] at hsuppress ⊢
  obtain ⟨heffective, hrecent, -, -⟩ := judge_suppressed hsuppress
  -- the zeroed level is none of a signal's, so the level in the slot is that of an accepted one
  have hemitted := (slot_emission p pre).resolve_left fun hclean =>
    judge_effective_ne_clean _ hrequested t (heffective.trans hclean)
  obtain ⟨pre', op', post', requested', hsplit, hsignal', haccepted, hlevel⟩ := hemitted
  have hle : (stateFor (policyRun pre) p).lastEmitNs ≤ t :=
    times_le_last hclock hsignal _ (mem_timesOf_of_signalFor (by simp [hsplit]) hsignal')
  refine ⟨pre', op', post', requested', _, hsplit, hsignal', haccepted, hlevel.trans heffective.symm, hle, ?_⟩
  rw [BitVec.lt_def, BitVec.toNat_sub_of_le hle] at hrecent
  exact hrecent

/-- A suspicious signal half a second after another. -/
theorem suppression_justified_repeat :
    (applyThreatPolicy (bridgeRun ⟨true, fun _ => true⟩ (fun _ => none) [suspiciousAt 7 1000]).policyTable 7
        .suspicious (1500 * 1000000)).suppressEmit = true ∧
      ∃ pre' op' post' requested' t', [suspiciousAt 7 1000] = pre' ++ op' :: post' ∧
        op'.signalFor 7 = some (requested', t') ∧
        (applyThreatPolicy (bridgeRun ⟨true, fun _ => true⟩ (fun _ => none) pre').policyTable 7
          requested' t').suppressEmit = false ∧
        (applyThreatPolicy (bridgeRun ⟨true, fun _ => true⟩ (fun _ => none) pre').policyTable 7
            requested' t').effective =
          (applyThreatPolicy (bridgeRun ⟨true, fun _ => true⟩ (fun _ => none) [suspiciousAt 7 1000]).policyTable 7
            .suspicious (1500 * 1000000)).effective ∧
        t' ≤ 1500 * 1000000 ∧ (1500 * 1000000 : U64).toNat - t'.toNat < 1000000000 := by
  have hsuppress : (applyThreatPolicy (bridgeRun ⟨true, fun _ => true⟩ (fun _ => none)
      [suspiciousAt 7 1000]).policyTable 7 .suspicious (1500 * 1000000)).suppressEmit = true := by
    decide +kernel
  exact ⟨hsuppress, suppression_justified _ _ 7 _ (suspiciousAt 7 1500) .suspicious (1500 * 1000000) (by decide +kernel)
    (by decide +kernel) hsuppress⟩

/-! Escalation. -/

/-- The escalation window that opened at `start` is over, or none was opened. -/
def WindowOver (start nowNs : U64) : Prop := start = 0 ∨ nowNs - start > policyEscalationWindowNs

/-- A suspicious signal opens a window and is the first in it, or is one more in the window. -/
theorem countSuspicious_cases (state : PidPolicyState) (nowNs : U64) :
    (WindowOver state.burstWindowStartNs nowNs ∧ (countSuspicious state nowNs).burstWindowStartNs = nowNs ∧
        (countSuspicious state nowNs).suspiciousBurst = 1) ∨
      ¬ WindowOver state.burstWindowStartNs nowNs ∧
        (countSuspicious state nowNs).burstWindowStartNs = state.burstWindowStartNs ∧
        (countSuspicious state nowNs).suspiciousBurst = state.suspiciousBurst + 1 := by
  unfold countSuspicious
  dsimp only
  split
  next hover => exact Or.inl ⟨hover, rfl, rfl⟩
  next hopen => exact Or.inr ⟨hopen, rfl, rfl⟩

theorem judge_window (state : PidPolicyState) (requested : ThreatLevel) (nowNs : U64) :
    (judge state requested nowNs).2.burstWindowStartNs = (applyBurst state requested nowNs).1.burstWindowStartNs ∧
      (judge state requested nowNs).2.suspiciousBurst = (applyBurst state requested nowNs).1.suspiciousBurst := by
  unfold judge
  dsimp only
  split
  · exact ⟨rfl, rfl⟩
  · exact ⟨rfl, rfl⟩

theorem judge_window_suspicious (state : PidPolicyState) (nowNs : U64) :
    (judge state .suspicious nowNs).2.burstWindowStartNs = (countSuspicious state nowNs).burstWindowStartNs ∧
      (judge state .suspicious nowNs).2.suspiciousBurst = (countSuspicious state nowNs).suspiciousBurst := by
  rw [(judge_window ..).1, (judge_window ..).2, applyBurst, if_pos rfl]
  dsimp only
  split
  · exact ⟨rfl, rfl⟩
  · exact ⟨rfl, rfl⟩

/-- Every other signal starts the count again. -/
theorem judge_window_other (state : PidPolicyState) {requested : ThreatLevel} (h : requested ≠ .suspicious)
    (nowNs : U64) : (judge state requested nowNs).2.burstWindowStartNs = nowNs ∧
      (judge state requested nowNs).2.suspiciousBurst = 0 := by
  rw [(judge_window ..).1, (judge_window ..).2, applyBurst, if_neg h]
  exact ⟨rfl, rfl⟩

theorem judge_escalates_iff (state : PidPolicyState) (nowNs : U64) :
    (judge state .suspicious nowNs).1.effective = .malicious ↔
      policyEscalationCount ≤ (countSuspicious state nowNs).suspiciousBurst := by
  have heffective : (judge state .suspicious nowNs).1.effective = (applyBurst state .suspicious nowNs).2.1 := rfl
  rw [heffective, applyBurst, if_pos rfl]
  dsimp only
  split
  next hcount => exact ⟨fun _ => hcount, fun _ => rfl⟩
  next hcount => exact ⟨fun h => (ThreatLevel.noConfusion h), fun h => absurd h hcount⟩

theorem mem_timesOf_snoc {ops : List BridgeOp} {t : U64} (op : BridgeOp) (h : t ∈ timesOf ops) :
    t ∈ timesOf (ops ++ [op]) := by
  rw [timesOf_append]
  exact List.mem_append_left _ h

/-- The window opened at one of the calls. -/
theorem slot_window (p : U32) (ops : List BridgeOp) :
    (stateFor (policyRun ops) p).burstWindowStartNs = 0 ∨
      (stateFor (policyRun ops) p).burstWindowStartNs ∈ timesOf ops := by
  refine stateFor_inv p (I := fun ops state => state.burstWindowStartNs = 0 ∨ state.burstWindowStartNs ∈ timesOf ops)
    ?_ ?_ ?_ ops
  · intro ops
    exact Or.inl rfl
  · intro ops op state _ h
    exact h.imp_right (mem_timesOf_snoc op)
  · intro ops op requested nowNs _ hsignal h
    have hnow : nowNs ∈ timesOf (ops ++ [op]) := mem_timesOf_of_signalFor (by simp) hsignal
    by_cases hsuspicious : requested = .suspicious
    · subst hsuspicious
      rw [(judge_window_suspicious ..).1]
      rcases countSuspicious_cases (stateFor (policyRun ops) p) nowNs with ⟨-, hstart, -⟩ | ⟨-, hstart, -⟩
      · rw [hstart]
        exact Or.inr hnow
      · rw [hstart]
        exact h.imp_right (mem_timesOf_snoc op)
    · rw [(judge_window_other _ hsuspicious _).1]
      exact Or.inr hnow

/-- The pid's suspicious signals since a time. -/
def suspiciousSince (p : U32) (ops : List BridgeOp) (start : U64) : Nat :=
  (signalsOf p ops).countP fun signal => signal.1 = .suspicious ∧ start ≤ signal.2

theorem suspiciousSince_snoc {p : U32} (ops : List BridgeOp) {op : BridgeOp} {start t : U64}
    (hsignal : op.signalFor p = some (.suspicious, t)) (hstart : start ≤ t) :
    suspiciousSince p (ops ++ [op]) start = suspiciousSince p ops start + 1 := by
  rw [suspiciousSince, signalsOf_snoc, hsignal, Option.toList_some, List.countP_append, suspiciousSince]
  congr 1
  simp [hstart]

theorem window_le {p : U32} {ops : List BridgeOp} {op : BridgeOp} {requested : ThreatLevel} {t : U64}
    (hclock : (timesOf (ops ++ [op])).Pairwise (· ≤ ·)) (hsignal : op.signalFor p = some (requested, t)) :
    (stateFor (policyRun ops) p).burstWindowStartNs ≤ t := by
  rcases slot_window p ops with hzero | hmem
  · rw [hzero]
    exact Nat.zero_le _
  · exact times_le_last hclock hsignal _ hmem

/-- The count of a slot is at most that of the pid's suspicious signals in its window. -/
theorem slot_burst (p : U32) (ops : List BridgeOp) (hclock : (timesOf ops).Pairwise (· ≤ ·)) :
    (stateFor (policyRun ops) p).suspiciousBurst.toNat ≤
      suspiciousSince p ops (stateFor (policyRun ops) p).burstWindowStartNs := by
  refine stateFor_inv p (I := fun ops state => (timesOf ops).Pairwise (· ≤ ·) →
    state.suspiciousBurst.toNat ≤ suspiciousSince p ops state.burstWindowStartNs) ?_ ?_ ?_ ops hclock
  · intro ops _
    exact Nat.zero_le _
  · intro ops op state hsignal h hclock
    rw [timesOf_append, List.pairwise_append] at hclock
    rw [suspiciousSince, signalsOf_snoc, hsignal, Option.toList_none, List.append_nil]
    exact h hclock.1
  · intro ops op requested nowNs _ hsignal h hclock
    by_cases hsuspicious : requested = .suspicious
    · subst hsuspicious
      obtain ⟨hjudgeStart, hjudgeBurst⟩ := judge_window_suspicious (stateFor (policyRun ops) p) nowNs
      rw [hjudgeStart, hjudgeBurst]
      rcases countSuspicious_cases (stateFor (policyRun ops) p) nowNs with ⟨-, hstart, hburst⟩ | ⟨-, hstart, hburst⟩
      · -- the signal that opens a window is in it
        rw [hstart, hburst, suspiciousSince_snoc ops hsignal (Nat.le_refl _)]
        exact Nat.le_add_left 1 _
      · have hle := window_le hclock hsignal
        rw [timesOf_append, List.pairwise_append] at hclock
        rw [hstart, hburst, suspiciousSince_snoc ops hsignal hle, BitVec.toNat_add]
        -- a counter that wraps only falls behind
        calc ((stateFor (policyRun ops) p).suspiciousBurst.toNat + 1) % 2 ^ 32
            ≤ (stateFor (policyRun ops) p).suspiciousBurst.toNat + 1 := Nat.mod_le ..
          _ ≤ suspiciousSince p ops (stateFor (policyRun ops) p).burstWindowStartNs + 1 :=
            Nat.add_le_add_right (h hclock.1) 1
    · rw [(judge_window_other _ hsuspicious _).2]
      exact Nat.zero_le _

theorem signalFor_signalSuspicious (p : U32) (reason : Option CStr) (nowNs stampNs : U64) :
    (BridgeOp.signalSuspicious p reason nowNs stampNs).signalFor p = some (.suspicious, nowNs) := by
  rw [BridgeOp.signalFor, BridgeOp.signal?, Option.bind_some, if_pos rfl]

theorem signalsOf_le_last {p : U32} {ops : List BridgeOp} {op : BridgeOp} {requested : ThreatLevel} {t : U64}
    (hclock : (timesOf (ops ++ [op])).Pairwise (· ≤ ·)) (hsignal : op.signalFor p = some (requested, t)) :
    ∀ signal ∈ signalsOf p (ops ++ [op]), signal.2 ≤ t := by
  intro signal hmem
  rw [signalsOf_snoc, hsignal, Option.toList_some, List.mem_append, List.mem_singleton] at hmem
  rcases hmem with hearlier | rfl
  · obtain ⟨op', hop', hfor⟩ := List.mem_filterMap.mp hearlier
    exact times_le_last hclock hsignal _ (mem_timesOf_of_signalFor hop' hfor)
  · exact Nat.le_refl _

/-- **Escalation is sound.** -/
theorem escalation_sound (env : MapEnv) (vmiAlertMap : U32 → Option ThreatLevel) (p : U32) (pre : List BridgeOp)
    (reason : Option CStr) (t stampNs : U64)
    (hclock : (timesOf (pre ++ [.signalSuspicious p reason t stampNs])).Pairwise (· ≤ ·))
    (hescalated : (applyThreatPolicy (bridgeRun env vmiAlertMap pre).policyTable p .suspicious t).effective =
      .malicious) :
    3 ≤ (signalsOf p (pre ++ [.signalSuspicious p reason t stampNs])).countP fun signal =>
      signal.1 = .suspicious ∧ t.toNat ≤ signal.2.toNat + 10 * 1000000000 ∧ signal.2.toNat ≤ t.toNat := by
  have hsignal := signalFor_signalSuspicious p reason t stampNs
  have hstart := window_le hclock hsignal
  have hafter := slot_burst p (pre ++ [.signalSuspicious p reason t stampNs]) hclock
  rw [policyRun_snoc, policyStep, BridgeOp.signal?] at hafter
  dsimp only at hafter
  rw [(step_own .suspicious t (policyRun_oneSlotEach pre)).2, (judge_window_suspicious ..).1,
    (judge_window_suspicious ..).2] at hafter
  rw [bridgeRun_policyTable, applyThreatPolicy_effective, judge_escalates_iff] at hescalated
  have hthree : 3 ≤ (countSuspicious (stateFor (policyRun pre) p) t).suspiciousBurst.toNat := hescalated
  rcases countSuspicious_cases (stateFor (policyRun pre) p) t with ⟨-, -, hburst⟩ | ⟨hopen, hsame, -⟩
  · rw [hburst] at hthree
    exact absurd hthree (by decide)
  · rw [hsame] at hafter
    have hrecent : t.toNat ≤ (stateFor (policyRun pre) p).burstWindowStartNs.toNat + 10 * 1000000000 := by
      have hwithin : ¬ policyEscalationWindowNs < t - (stateFor (policyRun pre) p).burstWindowStartNs :=
        fun h => hopen (Or.inr h)
      rw [BitVec.lt_def, BitVec.toNat_sub_of_le hstart] at hwithin
      have hwindow : policyEscalationWindowNs.toNat = 10 * 1000000000 := rfl
      omega
    refine (hthree.trans hafter).trans ?_
    -- every signal counted since the window opened is within ten seconds
    refine List.countP_mono_left ?_
    intro signal hmem hcounted
    have hle : signal.2.toNat ≤ t.toNat := signalsOf_le_last hclock hsignal signal hmem
    obtain ⟨hlevel, hsince⟩ := of_decide_eq_true hcounted
    have hsince' : (stateFor (policyRun pre) p).burstWindowStartNs.toNat ≤ signal.2.toNat := hsince
    exact decide_eq_true ⟨hlevel, by omega, hle⟩

/-- The third of three suspicious signals at 1, 2 and 3 s. -/
theorem escalation_sound_quiet :
    (applyThreatPolicy (bridgeRun ⟨true, fun _ => true⟩ (fun _ => none)
        [suspiciousAt 7 1000, suspiciousAt 7 2000]).policyTable 7 .suspicious (3000 * 1000000)).effective = .malicious ∧
      3 ≤ (signalsOf 7 ([suspiciousAt 7 1000, suspiciousAt 7 2000] ++ [suspiciousAt 7 3000])).countP fun signal =>
        signal.1 = .suspicious ∧ (3000 * 1000000 : U64).toNat ≤ signal.2.toNat + 10 * 1000000000 ∧
          signal.2.toNat ≤ (3000 * 1000000 : U64).toNat := by
  have hescalated : (applyThreatPolicy (bridgeRun ⟨true, fun _ => true⟩ (fun _ => none)
      [suspiciousAt 7 1000, suspiciousAt 7 2000]).policyTable 7 .suspicious (3000 * 1000000)).effective =
        .malicious := by
    decide +kernel
  exact ⟨hescalated, escalation_sound _ _ 7 _ none (3000 * 1000000) (3000 * 1000000) (by decide +kernel) hescalated⟩

/-! Which bursts are seen. -/

/-- The window in force after some signals of a pid: the time it is anchored at and how many
    suspicious signals it has seen. -/
structure BurstWindow where
  anchor : U64
  count : Nat
  deriving DecidableEq, Repr

/-- No window, or one anchored more than ten seconds before. A window anchored at time 0 is none. -/
def BurstWindow.Expired (w : BurstWindow) (t : U64) : Prop :=
  w.anchor = 0 ∨ w.anchor.toNat + 10 * 1000000000 < t.toNat

instance (w : BurstWindow) (t : U64) : Decidable (w.Expired t) := inferInstanceAs (Decidable (_ ∨ _))

def BurstWindow.next (w : BurstWindow) (signal : ThreatLevel × U64) : BurstWindow :=
  if signal.1 = .suspicious then
    if w.Expired signal.2 then ⟨signal.2, 1⟩ else { w with count := w.count + 1 }
  else ⟨signal.2, 0⟩

def burstWindow (signals : List (ThreatLevel × U64)) : BurstWindow := run BurstWindow.next ⟨0, 0⟩ signals

/-- The last of the signals opened a window. -/
def StartsWindow (signals : List (ThreatLevel × U64)) : Prop :=
  ∃ signal ∈ signals.getLast?, signal.1 = .suspicious ∧ (burstWindow signals.dropLast).Expired signal.2

theorem burstWindow_snoc (signals : List (ThreatLevel × U64)) (signal : ThreatLevel × U64) :
    burstWindow (signals ++ [signal]) = (burstWindow signals).next signal := run_snoc ..

theorem startsWindow_snoc (signals : List (ThreatLevel × U64)) (t : U64) :
    StartsWindow (signals ++ [(.suspicious, t)]) ↔ (burstWindow signals).Expired t := by
  simp [StartsWindow]

theorem burstWindow_anchor (signals : List (ThreatLevel × U64)) :
    (burstWindow signals).anchor = 0 ∨ (burstWindow signals).anchor ∈ signals.map Prod.snd := by
  induction signals using List.reverseRecOn with
  | nil => exact Or.inl rfl
  | append_singleton signals signal ih =>
    rw [burstWindow_snoc, List.map_append, List.mem_append, BurstWindow.next]
    split
    · split
      · exact Or.inr (Or.inr (List.mem_singleton.mpr rfl))
      · exact ih.imp_right Or.inl
    · exact Or.inr (Or.inr (List.mem_singleton.mpr rfl))

/-- Where the clock does not run back, the code's test of the window is that of the history. -/
theorem windowOver_iff {w : BurstWindow} {t : U64} (h : w.anchor ≤ t) : WindowOver w.anchor t ↔ w.Expired t := by
  refine or_congr_right ?_
  have hwindow : policyEscalationWindowNs.toNat = 10 * 1000000000 := rfl
  have hle : w.anchor.toNat ≤ t.toNat := h
  rw [gt_iff_lt, BitVec.lt_def, BitVec.toNat_sub_of_le h, hwindow]
  omega

/-- The slot of a pid that keeps it holds the window of the pid's history; the counter wraps. -/
theorem ownState_window (p : U32) (signals : List (ThreatLevel × U64))
    (hclock : (signals.map Prod.snd).Pairwise (· ≤ ·)) :
    (ownState p signals).burstWindowStartNs = (burstWindow signals).anchor ∧
      (ownState p signals).suspiciousBurst = BitVec.ofNat 32 (burstWindow signals).count := by
  induction signals using List.reverseRecOn with
  | nil => exact ⟨rfl, rfl⟩
  | append_singleton signals signal ih =>
    rw [List.map_append, List.pairwise_append] at hclock
    obtain ⟨hbefore, -, hlast⟩ := hclock
    obtain ⟨hstart, hburst⟩ := ih hbefore
    have hanchor : (burstWindow signals).anchor ≤ signal.2 := by
      rcases burstWindow_anchor signals with hzero | hmem
      · rw [hzero]
        exact Nat.zero_le _
      · exact hlast _ hmem _ (List.mem_singleton.mpr rfl)
    obtain ⟨level, t⟩ := signal
    rw [ownState_snoc, burstWindow_snoc, BurstWindow.next]
    by_cases hsuspicious : level = .suspicious
    · subst hsuspicious
      obtain ⟨hjudgeStart, hjudgeBurst⟩ := judge_window_suspicious (ownState p signals) t
      rw [hjudgeStart, hjudgeBurst, if_pos rfl]
      rcases countSuspicious_cases (ownState p signals) t with ⟨hover, hstart', hburst'⟩ | ⟨hopen, hstart', hburst'⟩
      · rw [hstart, windowOver_iff hanchor] at hover
        rw [if_pos hover, hstart', hburst']
        exact ⟨rfl, rfl⟩
      · rw [hstart, windowOver_iff hanchor] at hopen
        rw [if_neg hopen, hstart', hburst', hstart, hburst]
        exact ⟨rfl, (BitVec.ofNat_add _ 1).symm⟩
    · obtain ⟨hjudgeStart, hjudgeBurst⟩ := judge_window_other (ownState p signals) hsuspicious t
      rw [hjudgeStart, hjudgeBurst, if_neg hsuspicious]
      exact ⟨rfl, rfl⟩

theorem suspicious_counted (signals : List (ThreatLevel × U64)) (t : U64) :
    (burstWindow (signals ++ [(.suspicious, t)])).count =
      if (burstWindow signals).Expired t then 1 else (burstWindow signals).count + 1 := by
  rw [burstWindow_snoc, BurstWindow.next, if_pos rfl]
  split
  · rfl
  · rfl

/-- After three suspicious signals in a row the window has seen three, unless one of the last two
    opened it. -/
theorem three_counted_iff (signals : List (ThreatLevel × U64)) (t₁ t₂ t₃ : U64)
    {one two three : List (ThreatLevel × U64)}
    (hone : one = signals ++ [(.suspicious, t₁)]) (htwo : two = one ++ [(.suspicious, t₂)])
    (hthree : three = two ++ [(.suspicious, t₃)]) :
    3 ≤ (burstWindow three).count ↔ ¬ StartsWindow two ∧ ¬ StartsWindow three := by
  have hfirst : 1 ≤ (burstWindow one).count := by
    rw [hone, suspicious_counted]
    split
    · exact Nat.le_refl 1
    · exact Nat.le_add_left 1 _
  have hsecond := suspicious_counted one t₂
  rw [hthree, suspicious_counted, startsWindow_snoc, htwo, startsWindow_snoc]
  by_cases h₂ : (burstWindow one).Expired t₂
  · rw [if_pos h₂] at hsecond
    rw [hsecond]
    simp only [h₂, not_true_eq_false, false_and, iff_false]
    split
    · omega
    · omega
  · rw [if_neg h₂] at hsecond
    rw [hsecond]
    simp only [h₂, not_false_eq_true, true_and]
    split
    next h₃ => exact iff_of_false (by decide) (fun hnot => hnot h₃)
    next h₃ =>
      simp only [h₃, not_false_eq_true, iff_true]
      omega

/-- Among the pid's calls so far there are two suspicious ones, the first at most ten seconds
    before the time, with no malicious one after it. -/
def TwoSuspiciousWithin (p : U32) (ops : List BridgeOp) (t : U64) : Prop :=
  ∃ before between after t₁ t₂,
    signalsOf p ops = before ++ (.suspicious, t₁) :: (between ++ (.suspicious, t₂) :: after) ∧
      (∀ signal ∈ between ++ after, signal.1 ≠ .malicious) ∧ t.toNat ≤ t₁.toNat + 10 * 1000000000

theorem signalsOf_ne_clean (p : U32) (ops : List BridgeOp) : ∀ signal ∈ signalsOf p ops, signal.1 ≠ .clean := by
  intro signal hmem
  obtain ⟨op, -, hfor⟩ := List.mem_filterMap.mp hmem
  rcases policyStep_cases p (fun _ => {}) op with ⟨hnone, -⟩ | ⟨requested, nowNs, hrequested, hsome, -⟩
  · rw [hnone] at hfor
    cases hfor
  · rw [hsome] at hfor
    cases hfor
    exact hrequested

/-- A list with two members at its end. -/
theorem exists_last_two {α : Type} {l : List α} (h : 2 ≤ l.length) : ∃ init x y, l = init ++ [x] ++ [y] := by
  obtain ⟨init, y, rfl⟩ := List.eq_nil_or_concat l |>.resolve_left (by rintro rfl; simp at h)
  obtain ⟨init', x, rfl⟩ := List.eq_nil_or_concat init |>.resolve_left (by rintro rfl; simp at h)
  exact ⟨init', x, y, by simp⟩

theorem TwoSuspiciousWithin.last_two {p : U32} {ops : List BridgeOp} {t : U64} (h : TwoSuspiciousWithin p ops t) :
    ∃ before t₁ t₂, signalsOf p ops = before ++ [(.suspicious, t₁)] ++ [(.suspicious, t₂)] := by
  obtain ⟨before, between, after, t₁, t₂, hsplit, hnone, -⟩ := h
  -- from the first on, all of the pid's signals are suspicious
  have hall : ∀ signal ∈ (ThreatLevel.suspicious, t₁) :: (between ++ (.suspicious, t₂) :: after),
      signal.1 = .suspicious := by
    intro signal hmem
    have hclean : signal.1 ≠ .clean := signalsOf_ne_clean p ops signal (by rw [hsplit]; exact List.mem_append_right _ hmem)
    have hmalicious : signal.1 = .suspicious ∨ signal.1 ≠ .malicious := by
      simp only [List.mem_cons, List.mem_append] at hmem
      rcases hmem with rfl | hbetween | rfl | hafter
      · exact Or.inl rfl
      · exact Or.inr (hnone signal (List.mem_append_left _ hbetween))
      · exact Or.inl rfl
      · exact Or.inr (hnone signal (List.mem_append_right _ hafter))
    rcases hmalicious with hdone | hne
    · exact hdone
    · cases hlevel : signal.1 with
      | clean => exact absurd hlevel hclean
      | suspicious => rfl
      | malicious => exact absurd hlevel hne
  obtain ⟨init, ⟨level₁, u₁⟩, ⟨level₂, u₂⟩, hlast⟩ := exists_last_two
    (l := (ThreatLevel.suspicious, t₁) :: (between ++ (.suspicious, t₂) :: after)) (by simp; omega)
  rw [hlast] at hall hsplit
  obtain rfl : level₁ = .suspicious := hall (level₁, u₁) (by simp)
  obtain rfl : level₂ = .suspicious := hall (level₂, u₂) (by simp)
  refine ⟨before ++ init, u₁, u₂, ?_⟩
  rw [hsplit, List.append_assoc before, List.append_assoc before]

theorem signalsOf_clock {p : U32} {ops : List BridgeOp} (hclock : (timesOf ops).Pairwise (· ≤ ·)) :
    ((signalsOf p ops).map Prod.snd).Pairwise (· ≤ ·) := by
  induction ops using List.reverseRecOn with
  | nil => exact List.Pairwise.nil
  | append_singleton ops op ih =>
    have hbefore : (timesOf ops).Pairwise (· ≤ ·) := by
      rw [timesOf_append, List.pairwise_append] at hclock
      exact hclock.1
    cases hsignal : op.signalFor p with
    | none =>
      rw [signalsOf_snoc, hsignal, Option.toList_none, List.append_nil]
      exact ih hbefore
    | some signal =>
      rw [signalsOf_snoc, hsignal, Option.toList_some, List.map_append, List.pairwise_append]
      refine ⟨ih hbefore, List.pairwise_singleton _ _, ?_⟩
      intro t ht t' ht'
      obtain ⟨earlier, hearlier, rfl⟩ := List.mem_map.mp ht
      rw [List.map_singleton, List.mem_singleton] at ht'
      rw [ht']
      refine signalsOf_le_last hclock hsignal earlier ?_
      rw [signalsOf_append]
      exact List.mem_append_left _ hearlier

/-- **Which bursts are escalated.** Of three suspicious signals of a pid within ten seconds, with no
    malicious one in between and at most 1024 pids, the third is escalated if and only if neither it
    nor the pid's signal before it opened a window, and the counter did not wrap. -/
theorem escalation_complete_iff (env : MapEnv) (vmiAlertMap : U32 → Option ThreatLevel) (p : U32)
    (pre : List BridgeOp) (reason : Option CStr) (t stampNs : U64)
    (hfew : (pidsOf (pre ++ [.signalSuspicious p reason t stampNs])).card ≤ pidPolicyTableSize)
    (hclock : (timesOf (pre ++ [.signalSuspicious p reason t stampNs])).Pairwise (· ≤ ·))
    (hburst : TwoSuspiciousWithin p pre t) :
    (applyThreatPolicy (bridgeRun env vmiAlertMap pre).policyTable p .suspicious t).effective = .malicious ↔
      ¬ StartsWindow (signalsOf p pre) ∧
        ¬ StartsWindow (signalsOf p (pre ++ [.signalSuspicious p reason t stampNs])) ∧
        3 ≤ (burstWindow (signalsOf p (pre ++ [.signalSuspicious p reason t stampNs]))).count % 2 ^ 32 := by
  have hsignal := signalFor_signalSuspicious p reason t stampNs
  -- with at most 1024 pids the pid is judged by the state its own signals gave
  have hstate : stateFor (policyRun pre) p = ownState p (signalsOf p pre) := by
    have hkept := keepsSlot_of_few_pids hfew p
    exact hkept.of_snoc.1.faithful.stateFor_eq (hkept.of_snoc.2 (by simp [hsignal]))
  have hwindow := ownState_window p _ (signalsOf_clock (p := p) hclock)
  have hsnoc : signalsOf p (pre ++ [.signalSuspicious p reason t stampNs]) =
      signalsOf p pre ++ [(.suspicious, t)] := by
    rw [signalsOf_snoc, hsignal, Option.toList_some]
  rw [hsnoc] at hwindow ⊢
  rw [ownState_snoc, (judge_window_suspicious ..).2] at hwindow
  rw [bridgeRun_policyTable, applyThreatPolicy_effective, judge_escalates_iff, hstate, hwindow.2, BitVec.le_def,
    BitVec.toNat_ofNat]
  obtain ⟨before, t₁, t₂, hlast⟩ := hburst.last_two
  rw [hlast]
  have hthree := three_counted_iff before t₁ t₂ t rfl rfl rfl
  constructor
  · intro hcount
    have hcount' := hthree.mp (le_trans hcount (Nat.mod_le _ _))
    exact ⟨hcount'.1, hcount'.2, hcount⟩
  · intro h
    exact h.2.2

/-- Three suspicious signals right after the start. -/
theorem escalation_complete_quiet :
    TwoSuspiciousWithin 7 [suspiciousAt 7 1000, suspiciousAt 7 2000] (3000 * 1000000) ∧
      ((applyThreatPolicy (bridgeRun ⟨true, fun _ => true⟩ (fun _ => none)
          [suspiciousAt 7 1000, suspiciousAt 7 2000]).policyTable 7 .suspicious (3000 * 1000000)).effective = .malicious ↔
        ¬ StartsWindow (signalsOf 7 [suspiciousAt 7 1000, suspiciousAt 7 2000]) ∧
          ¬ StartsWindow (signalsOf 7 ([suspiciousAt 7 1000, suspiciousAt 7 2000] ++ [suspiciousAt 7 3000])) ∧
          3 ≤ (burstWindow (signalsOf 7
            ([suspiciousAt 7 1000, suspiciousAt 7 2000] ++ [suspiciousAt 7 3000]))).count % 2 ^ 32) := by
  have hburst : TwoSuspiciousWithin 7 [suspiciousAt 7 1000, suspiciousAt 7 2000] (3000 * 1000000) :=
    ⟨[], [], [], 1000 * 1000000, 2000 * 1000000, by decide +kernel, by simp, by decide⟩
  exact ⟨hburst, escalation_complete_iff _ _ 7 _ none (3000 * 1000000) (3000 * 1000000) (by decide +kernel)
    (by decide +kernel) hburst⟩

/-- **A burst across the end of a window is not seen.** Suspicious signals at 1, 10.5, 11.5 and
    12.5 s: the last three are within two seconds, but the window of the first ends between them. -/
theorem burst_across_windows_missed :
    (pidsOf ([suspiciousAt 7 1000, suspiciousAt 7 10500, suspiciousAt 7 11500] ++ [suspiciousAt 7 12500])).card ≤
        pidPolicyTableSize ∧
      (timesOf ([suspiciousAt 7 1000, suspiciousAt 7 10500, suspiciousAt 7 11500] ++
        [suspiciousAt 7 12500])).Pairwise (· ≤ ·) ∧
      TwoSuspiciousWithin 7 [suspiciousAt 7 1000, suspiciousAt 7 10500, suspiciousAt 7 11500] (12500 * 1000000) ∧
      ∀ env vmiAlertMap, (applyThreatPolicy (bridgeRun env vmiAlertMap
        [suspiciousAt 7 1000, suspiciousAt 7 10500, suspiciousAt 7 11500]).policyTable 7 .suspicious
          (12500 * 1000000)).effective = .suspicious := by
  refine ⟨by decide +kernel, by decide +kernel, ?_, ?_⟩
  · exact ⟨[(.suspicious, 1000 * 1000000)], [], [], 10500 * 1000000, 11500 * 1000000, by decide +kernel, by simp,
      by decide⟩
  · intro env vmiAlertMap
    rw [bridgeRun_policyTable]
    decide +kernel

end SentinelStack.Vmi
