import SentinelStack.Vmi.ThreatPolicy

/- What the bridge emits. Every alert the policy lets through is in custody from
   then on: it has been put to `write_alert_to_map`, or it waits in the queue
   undispatched. A call adds its own alert to the custody and drops none, so
   after the flush of `bridge_teardown` the calls of `write_alert_to_map` are
   the unsuppressed signals, each once (`emitted_exactly_once`). Nothing is
   assumed of the map: a write that fails is made once all the same. So an alert
   that was not delivered stays queued if and only if no write fails
   (`undelivered_queued_iff`). -/
namespace SentinelStack.Vmi
open SentinelStack.Lib

/-- The calls of `write_alert_to_map`. -/
def emitted (s : BridgeState) : List VmiAlert := s.mapWrites.map (·.1)

def custody (s : BridgeState) : List VmiAlert := emitted s ++ pending s.alertQueue.entries

/-- The alert of a signal that the policy does not suppress. -/
def signalAlert (t : PolicyTable) (requested : ThreatLevel) (pid : U32) (reason : Option CStr) (nowNs stampNs : U64) :
    Option VmiAlert :=
  let r := applyThreatPolicy t pid requested nowNs
  if r.suppressEmit then none else some (newAlert pid r.effective reason stampNs)

def unsuppressedAlert (t : PolicyTable) : BridgeOp → Option VmiAlert
  | .signalMalicious pid reason nowNs stampNs => signalAlert t .malicious pid reason nowNs stampNs
  | .signalSuspicious pid reason nowNs stampNs => signalAlert t .suspicious pid reason nowNs stampNs
  | .flushAlerts => none

/-- The alerts of the signals the policy does not suppress, in order. -/
def unsuppressed (t : PolicyTable) : List BridgeOp → List VmiAlert
  | [] => []
  | op :: ops => (unsuppressedAlert t op).toList ++ unsuppressed (policyStep t op) ops

/-- The part of `bridge_teardown` before the descriptors are closed. -/
def bridgeTeardown (env : MapEnv) (s : BridgeState) : BridgeState := bridgeFlushAlerts env s

/-- The entries of `alert_queue` that `bridge_flush_alerts` reads. -/
def flushIndices (s : BridgeState) : List Nat := List.range s.alertQueue.entries.length

/-- The entry that `enqueue_alert` writes, if there is room. -/
def pushIndices (s : BridgeState) : List Nat :=
  if s.alertQueue.entries.length ≥ alertQueueSize then [] else [s.alertQueue.entries.length]

/-- Those that `enqueue_alert` uses: a full queue is flushed first. -/
def enqueueIndices (env : MapEnv) (s : BridgeState) : List Nat :=
  if s.alertQueue.entries.length ≥ alertQueueSize then flushIndices s ++ pushIndices (bridgeFlushAlerts env s)
  else pushIndices s

def queueIndices (env : MapEnv) (s : BridgeState) (op : BridgeOp) : List Nat :=
  match op, unsuppressedAlert s.policyTable op with
  | .flushAlerts, _ => flushIndices s
  | _, some _ => enqueueIndices env s
  | _, none => []

section emission
variable (env : MapEnv)

theorem flushLoop_emitted (s : BridgeState) (qs : List QueuedAlert) :
    emitted (flushLoop env s qs) = emitted s ++ pending qs := by
  induction qs generalizing s with
  | nil => exact (List.append_nil _).symm
  | cons q qs ih =>
    rw [flushLoop, ih]
    cases hq : q.sentImmediately with
    | true => simp [pending, hq]
    | false => simp [pending, hq, emitted, emitAlert, writeAlertToMap]

/-- A flush emits what waits. -/
theorem bridgeFlushAlerts_emitted (s : BridgeState) : emitted (bridgeFlushAlerts env s) = custody s := by
  unfold bridgeFlushAlerts custody
  split
  next h =>
    rw [List.eq_nil_of_length_eq_zero h]
    exact (List.append_nil _).symm
  · exact flushLoop_emitted env s s.alertQueue.entries

theorem bridgeFlushAlerts_custody (s : BridgeState) : custody (bridgeFlushAlerts env s) = custody s := by
  rw [custody, bridgeFlushAlerts_emitted, bridgeFlushAlerts_entries]
  exact List.append_nil _

/-- A stored alert is emitted now or waits, never both. -/
theorem pushAlert_custody (s : BridgeState) (alert : VmiAlert) (immediate : Bool)
    (h : s.alertQueue.entries.length < alertQueueSize) :
    (custody (pushAlert env s alert immediate h)).Perm (custody s ++ [alert]) := by
  cases immediate with
  | true =>
    have hcustody : custody (pushAlert env s alert true h) = emitted s ++ ([alert] ++ pending s.alertQueue.entries) := by
      simp [custody, emitted, pushAlert, AlertQueue.push, pending, emitAlert, writeAlertToMap]
    -- sent at once, it comes before those that wait
    rw [hcustody, custody, List.append_assoc]
    exact List.perm_append_comm.append_left _
  | false =>
    have hcustody : custody (pushAlert env s alert false h) = custody s ++ [alert] := by
      simp [custody, emitted, pushAlert, AlertQueue.push, pending]
    rw [hcustody]

theorem enqueueAlert_custody (s : BridgeState) (pid : U32) (level : ThreatLevel) (reason : Option CStr)
    (immediate : Bool) (stampNs : U64) :
    (custody (enqueueAlert env s pid level reason immediate stampNs)).Perm
      (custody s ++ [newAlert pid level reason stampNs]) := by
  obtain ⟨hroom, hpush⟩ := enqueueAlert_pushes env s pid level reason immediate stampNs
  rw [hpush]
  refine (pushAlert_custody env _ _ immediate hroom).trans ?_
  -- the flush of a full queue only moves alerts from the queue to the map
  split
  · rw [bridgeFlushAlerts_custody]
  · exact List.Perm.refl _

theorem bridgeSignal_custody (requested : ThreatLevel) (immediate : ThreatLevel → Bool) (s : BridgeState)
    (pid : U32) (reason : Option CStr) (nowNs stampNs : U64) :
    (custody (bridgeSignal requested immediate env s pid reason nowNs stampNs)).Perm
      (custody s ++ (signalAlert s.policyTable requested pid reason nowNs stampNs).toList) := by
  unfold bridgeSignal signalAlert
  dsimp only
  split
  · rw [Option.toList_none, List.append_nil]
    exact List.Perm.refl _
  · exact enqueueAlert_custody env _ pid _ reason _ stampNs

/-- **The step.** A call puts its unsuppressed alert into custody and drops none. -/
theorem bridgeStep_custody (s : BridgeState) (op : BridgeOp) :
    (custody (bridgeStep env s op)).Perm (custody s ++ (unsuppressedAlert s.policyTable op).toList) := by
  cases op with
  | signalMalicious pid reason nowNs stampNs =>
    rw [bridgeStep, bridgeSignalMalicious, unsuppressedAlert]
    exact bridgeSignal_custody env ..
  | signalSuspicious pid reason nowNs stampNs =>
    rw [bridgeStep, bridgeSignalSuspicious, unsuppressedAlert]
    exact bridgeSignal_custody env ..
  | flushAlerts =>
    rw [bridgeStep, bridgeFlushAlerts_custody, unsuppressedAlert, Option.toList_none, List.append_nil]

/-- **The run.** -/
theorem run_custody (s : BridgeState) (ops : List BridgeOp) :
    (custody (run (bridgeStep env) s ops)).Perm (custody s ++ unsuppressed s.policyTable ops) := by
  induction ops generalizing s with
  | nil => rw [run_nil, unsuppressed, List.append_nil]
  | cons op ops ih =>
    rw [run_cons, unsuppressed, ← List.append_assoc, ← bridgeStep_policyTable env s op]
    exact (ih (bridgeStep env s op)).trans ((bridgeStep_custody env s op).append_right _)

theorem flushIndices_lt (s : BridgeState) {i : Nat} (hi : i ∈ flushIndices s) : i < alertQueueSize :=
  lt_of_lt_of_le (List.mem_range.mp hi) s.alertQueue.count_le

theorem pushIndices_lt (s : BridgeState) {i : Nat} (hi : i ∈ pushIndices s) : i < alertQueueSize := by
  unfold pushIndices at hi
  split at hi
  · cases hi
  next hroom =>
    rw [List.mem_singleton.mp hi]
    exact Nat.lt_of_not_le hroom

theorem enqueueIndices_lt (s : BridgeState) {i : Nat} (hi : i ∈ enqueueIndices env s) : i < alertQueueSize := by
  unfold enqueueIndices at hi
  split at hi
  · rcases List.mem_append.mp hi with hflushed | hwritten
    · exact flushIndices_lt s hflushed
    · exact pushIndices_lt _ hwritten
  · exact pushIndices_lt s hi

theorem queueIndices_lt (s : BridgeState) (op : BridgeOp) {i : Nat} (hi : i ∈ queueIndices env s op) :
    i < alertQueueSize := by
  unfold queueIndices at hi
  split at hi
  · exact flushIndices_lt s hi
  · exact enqueueIndices_lt env s hi
  · cases hi

/-- **Exactly once.** After the flush of `bridge_teardown`, `write_alert_to_map` has been called for
    the alerts of the unsuppressed signals, each as often as it was signalled, and for no other; and
    no call used a queue entry past the end of the queue. -/
theorem emitted_exactly_once (vmiAlertMap : U32 → Option ThreatLevel) (ops : List BridgeOp) :
    (emitted (bridgeTeardown env (bridgeRun env vmiAlertMap ops))).Perm (unsuppressed (fun _ => {}) ops) ∧
      (∀ pre op post, ops = pre ++ op :: post →
        ∀ i ∈ queueIndices env (bridgeRun env vmiAlertMap pre) op, i < alertQueueSize) ∧
      ∀ i ∈ flushIndices (bridgeRun env vmiAlertMap ops), i < alertQueueSize := by
  refine ⟨?_, ?_, ?_⟩
  · rw [bridgeTeardown, bridgeFlushAlerts_emitted]
    exact run_custody env (bridgeInit vmiAlertMap) ops
  · intro pre op post _ i hi
    exact queueIndices_lt env _ op hi
  · intro i hi
    exact flushIndices_lt _ hi

/-! Undelivered alerts. -/

/-- Every alert the policy has let through is in the queue and not marked as dispatched, or
    `write_alert_to_map` has returned success for it; equal alerts are counted. -/
def UndeliveredQueued (vmiAlertMap : U32 → Option ThreatLevel) (ops : List BridgeOp) : Prop :=
  ∀ a, (unsuppressed (fun _ => {}) ops).count a ≤
    (pending (bridgeRun env vmiAlertMap ops).alertQueue.entries).count a +
      (bridgeRun env vmiAlertMap ops).mapWrites.count (a, true)

/-- A call of `write_alert_to_map` succeeds or fails. -/
theorem count_emitted (s : BridgeState) (a : VmiAlert) :
    (emitted s).count a = s.mapWrites.count (a, true) + s.mapWrites.count (a, false) := by
  rw [emitted]
  induction s.mapWrites with
  | nil => rfl
  | cons w ws ih =>
    obtain ⟨b, ok⟩ := w
    rw [List.map_cons, List.count_cons, List.count_cons, List.count_cons, ih]
    by_cases hab : b = a
    · cases ok with
      | true =>
        simp [hab]
        omega
      | false =>
        simp [hab]
        omega
    · simp [hab]

/-- **Undelivered alerts stay queued** throughout exactly the runs in which no write fails. -/
theorem undelivered_queued_iff (vmiAlertMap : U32 → Option ThreatLevel) (ops : List BridgeOp) :
    UndeliveredQueued env vmiAlertMap ops ↔ ∀ w ∈ (bridgeRun env vmiAlertMap ops).mapWrites, w.2 = true := by
  have hcustody : ∀ a, (unsuppressed (fun _ => {}) ops).count a =
      (emitted (bridgeRun env vmiAlertMap ops)).count a +
        (pending (bridgeRun env vmiAlertMap ops).alertQueue.entries).count a := by
    intro a
    have hperm : (custody (bridgeRun env vmiAlertMap ops)).Perm (unsuppressed (fun _ => {}) ops) :=
      run_custody env (bridgeInit vmiAlertMap) ops
    rw [← hperm.count_eq a, custody, List.count_append]
  constructor
  · -- an alert whose write failed is in neither place
    rintro hqueued ⟨a, ok⟩ hw
    cases ok with
    | true => rfl
    | false =>
      have hpos : 0 < (bridgeRun env vmiAlertMap ops).mapWrites.count (a, false) := List.count_pos_iff.mpr hw
      have hle := hqueued a
      rw [hcustody, count_emitted] at hle
      omega
  · intro hok a
    have hnone : (bridgeRun env vmiAlertMap ops).mapWrites.count (a, false) = 0 := by
      rw [List.count_eq_zero]
      intro hw
      cases hok _ hw
    rw [hcustody, count_emitted, hnone]
    omega

end emission

/-- The map could not be opened. -/
def noMap : MapEnv := ⟨false, fun _ => true⟩

/-- **Alerts that are gone.** Without a map a malicious alert is marked as dispatched, and a
    suspicious one is flushed out of the queue; neither was written. -/
theorem undelivered_alerts_dropped :
    (bridgeRun noMap (fun _ => none) [.signalMalicious 7 none 1 1]).alertQueue.entries =
        [⟨newAlert 7 .malicious none 1, true⟩] ∧
      (bridgeRun noMap (fun _ => none) [.signalMalicious 7 none 1 1]).mapWrites =
        [(newAlert 7 .malicious none 1, false)] ∧
      (bridgeRun noMap (fun _ => none) [.signalSuspicious 8 none 1 1, .flushAlerts]).alertQueue.entries = [] ∧
      (bridgeRun noMap (fun _ => none) [.signalSuspicious 8 none 1 1, .flushAlerts]).mapWrites =
        [(newAlert 8 .suspicious none 1, false)] := by
  decide +kernel

end SentinelStack.Vmi
