import SentinelStack.Vmi.Bridge

/- What the bridge delivers. `Delivery` is the part of the bridge an observer of
   `vmi_alert_map` sees: the queue, the map, and the two logs. Its two steps are
   accepting an alert (malicious alerts are written at once, the others wait in
   the queue) and flushing the queue; `delivery_bridgeStep` says that every call
   into the bridge is one of these or leaves the delivery as it was.

   Results over every run:
   1. `lowering_write_is_batched` — the only write that lowers the level stored
      for a pid is a flush writing a queued suspicious alert over malicious;
   2. `latest_wins_of_in_order` — the map holds the level of the latest accepted
      signal after every flush, provided no flush finds a dispatched alert of a
      pid queued behind an undispatched one of that pid; and where an explicit
      flush does find one, the map is wrong after it. -/
namespace SentinelStack.Vmi
open SentinelStack.Lib

/-- The map write an alert stands for. -/
def VmiAlert.write (a : VmiAlert) : U32 × ThreatLevel := (a.pid, a.threatLevel)

/-- The alerts a flush still has to emit, in queue order. -/
def pending (q : List QueuedAlert) : List VmiAlert :=
  (q.filter (fun a => !a.sentImmediately)).map (·.alert)

theorem mem_pending {q : List QueuedAlert} {a : VmiAlert} : a ∈ pending q ↔ ⟨a, false⟩ ∈ q := by
  simp only [pending, List.mem_map, List.mem_filter]
  constructor
  · rintro ⟨⟨b, sent⟩, ⟨hb, hs⟩, rfl⟩
    simp only [Bool.not_eq_eq_eq_not, Bool.not_true] at hs
    exact hs ▸ hb
  · exact fun h => ⟨⟨a, false⟩, ⟨h, rfl⟩, rfl⟩

structure Delivery where
  queue : List QueuedAlert
  map : U32 → Option ThreatLevel
  accepted : List (U32 × ThreatLevel)
  mapWrites : List (VmiAlert × Bool)

def BridgeState.delivery (s : BridgeState) : Delivery where
  queue := s.alertQueue.entries
  map := s.vmiAlertMap
  accepted := s.accepted
  mapWrites := s.mapWrites

namespace Delivery

/-- Successful writes of the alerts, in order. -/
def write (d : Delivery) (as : List VmiAlert) : Delivery :=
  { d with map := writeAll d.map (as.map VmiAlert.write), mapWrites := d.mapWrites ++ as.map (·, true) }

def flush (d : Delivery) : Delivery := { d.write (pending d.queue) with queue := [] }

/-- The queue a new alert is appended to: a full one is flushed first. -/
def makeRoom (d : Delivery) : Delivery := if d.queue.length ≥ alertQueueSize then d.flush else d

def accept (d : Delivery) (a : VmiAlert) : Delivery :=
  let d := d.makeRoom
  { d.write (if a.threatLevel = .malicious then [a] else []) with
    queue := d.queue ++ [⟨a, a.threatLevel = .malicious⟩]
    accepted := d.accepted ++ [a.write] }

@[simp] theorem write_nil (d : Delivery) : d.write [] = d := by
  simp [write]

theorem write_append (d : Delivery) (as bs : List VmiAlert) : d.write (as ++ bs) = (d.write as).write bs := by
  simp [write, writeAll_append]

end Delivery

/-- What a call into the bridge does to the delivery. -/
inductive Route where
  | suppressed
  | accept (a : VmiAlert)
  | flush

def signalRoute (s : BridgeState) (requested : ThreatLevel) (pid : U32) (reason : Option CStr)
    (nowNs stampNs : U64) : Route :=
  let r := applyThreatPolicy s.policyTable pid requested nowNs
  if r.suppressEmit then .suppressed else .accept (newAlert pid r.effective reason stampNs)

def route (s : BridgeState) : BridgeOp → Route
  | .signalMalicious pid reason nowNs stampNs => signalRoute s .malicious pid reason nowNs stampNs
  | .signalSuspicious pid reason nowNs stampNs => signalRoute s .suspicious pid reason nowNs stampNs
  | .flushAlerts => .flush

def Delivery.step (d : Delivery) : Route → Delivery
  | .suppressed => d
  | .accept a => d.accept a
  | .flush => d.flush

/-- A call that empties the queue: an explicit flush, or an accepted signal that finds it full. -/
def Flushes (s : BridgeState) (op : BridgeOp) : Prop :=
  match route s op with
  | .suppressed => False
  | .accept _ => s.alertQueue.entries.length ≥ alertQueueSize
  | .flush => True

/-! The levels the policy lets through. -/

@[simp] theorem newAlert_pid (pid : U32) (level : ThreatLevel) (reason : Option CStr) (stampNs : U64) :
    (newAlert pid level reason stampNs).pid = pid := rfl

@[simp] theorem newAlert_threatLevel (pid : U32) (level : ThreatLevel) (reason : Option CStr) (stampNs : U64) :
    (newAlert pid level reason stampNs).threatLevel = level := rfl

theorem applyBurst_level (state : PidPolicyState) (requested : ThreatLevel) (nowNs : U64) :
    (applyBurst state requested nowNs).2.1 = requested ∨
      requested = .suspicious ∧ (applyBurst state requested nowNs).2.1 = .malicious := by
  unfold applyBurst
  split
  · next h =>
    dsimp only
    split
    · exact Or.inr ⟨h, rfl⟩
    · exact Or.inl rfl
  · exact Or.inl rfl

theorem applyThreatPolicy_level (t : PolicyTable) (pid : U32) (requested : ThreatLevel) (nowNs : U64) :
    (applyThreatPolicy t pid requested nowNs).effective = requested ∨
      requested = .suspicious ∧ (applyThreatPolicy t pid requested nowNs).effective = .malicious :=
  applyBurst_level _ requested nowNs

/-- An accepted alert is for the pid of the signal, and of the requested level or malicious. -/
theorem signalRoute_accept {s : BridgeState} {requested : ThreatLevel} {pid : U32} {reason : Option CStr}
    {nowNs stampNs : U64} {a : VmiAlert} (h : signalRoute s requested pid reason nowNs stampNs = .accept a) :
    a.pid = pid ∧ (a.threatLevel = requested ∨ a.threatLevel = .malicious) := by
  simp only [signalRoute] at h
  split at h
  · simp at h
  · rw [Route.accept.injEq] at h
    rw [← h, newAlert_threatLevel, newAlert_pid]
    refine ⟨rfl, ?_⟩
    exact (applyThreatPolicy_level s.policyTable pid requested nowNs).imp_right And.right

/-- An accepted alert is malicious, or it is suspicious and so was the signal, for the same pid. -/
theorem route_accept {s : BridgeState} {op : BridgeOp} {a : VmiAlert} (h : route s op = .accept a) :
    a.threatLevel = .malicious ∨
      a.threatLevel = .suspicious ∧ ∃ reason nowNs stampNs, op = .signalSuspicious a.pid reason nowNs stampNs := by
  cases op with
  | flushAlerts => simp [route] at h
  | signalMalicious pid reason nowNs stampNs =>
    rw [route] at h
    obtain ⟨-, hlevel⟩ := signalRoute_accept h
    exact Or.inl (hlevel.elim id id)
  | signalSuspicious pid reason nowNs stampNs =>
    rw [route] at h
    obtain ⟨hpid, hlevel⟩ := signalRoute_accept h
    rcases hlevel with hsuspicious | hmalicious
    · exact Or.inr ⟨hsuspicious, reason, nowNs, stampNs, by rw [hpid]⟩
    · exact Or.inl hmalicious

/-! The calls refine the delivery steps. -/

section refinement
variable {env : MapEnv}

theorem delivery_emitAlert (hok : env.Succeeds) (s : BridgeState) (q : QueuedAlert) :
    (emitAlert env s q).2.delivery = s.delivery.write [q.alert] := by
  simp [emitAlert, writeAlertToMap, hok.1, hok.2, BridgeState.delivery, Delivery.write, VmiAlert.write]

theorem delivery_flushLoop (hok : env.Succeeds) (s : BridgeState) (qs : List QueuedAlert) :
    (flushLoop env s qs).delivery = s.delivery.write (pending qs) := by
  induction qs generalizing s with
  | nil => simp [flushLoop, pending]
  | cons q qs ih =>
    rw [flushLoop, ih]
    cases hq : q.sentImmediately
    · have hp : pending (q :: qs) = [q.alert] ++ pending qs := by simp [pending, hq]
      rw [hp, Delivery.write_append, ← delivery_emitAlert hok s q]
      rfl
    · have hp : pending (q :: qs) = pending qs := by simp [pending, hq]
      rw [hp]
      rfl

theorem delivery_bridgeFlushAlerts (hok : env.Succeeds) (s : BridgeState) :
    (bridgeFlushAlerts env s).delivery = s.delivery.flush := by
  unfold bridgeFlushAlerts
  split
  · next h =>
    have hq : s.delivery.queue = [] := List.eq_nil_of_length_eq_zero h
    rw [Delivery.flush, hq]
    simp only [pending, List.filter_nil, List.map_nil, Delivery.write_nil]
    rw [← hq]
  · have hloop := delivery_flushLoop hok s s.alertQueue.entries
    rw [Delivery.flush]
    show ({ (flushLoop env s s.alertQueue.entries).delivery with queue := [] } : Delivery) = _
    rw [hloop]
    rfl

theorem bridgeFlushAlerts_entries (env : MapEnv) (s : BridgeState) :
    (bridgeFlushAlerts env s).alertQueue.entries = [] := by
  unfold bridgeFlushAlerts
  split
  · next h => exact List.eq_nil_of_length_eq_zero h
  · rfl

theorem flush_leaves_room (env : MapEnv) (s : BridgeState) :
    (bridgeFlushAlerts env s).alertQueue.entries.length < alertQueueSize := by
  rw [bridgeFlushAlerts_entries]; decide

theorem delivery_pushAlert (hok : env.Succeeds) (s : BridgeState) (a : VmiAlert)
    (h : s.alertQueue.entries.length < alertQueueSize) :
    (pushAlert env s a (a.threatLevel = .malicious) h).delivery =
      { s.delivery.write (if a.threatLevel = .malicious then [a] else []) with
        queue := s.delivery.queue ++ [⟨a, a.threatLevel = .malicious⟩] } := by
  unfold pushAlert
  by_cases hl : a.threatLevel = .malicious
  · simp only [hl, decide_true, if_true]
    rw [← delivery_emitAlert hok s ⟨a, false⟩]
    rfl
  · simp only [hl, decide_false, Bool.false_eq_true, if_false, Delivery.write_nil]
    rfl

theorem delivery_enqueueAlert (hok : env.Succeeds) (s : BridgeState) (pid : U32) (level : ThreatLevel)
    (reason : Option CStr) (stampNs : U64) :
    (enqueueAlert env { s with accepted := s.accepted ++ [(pid, level)] } pid level reason
        (level = .malicious) stampNs).delivery =
      s.delivery.accept (newAlert pid level reason stampNs) := by
  unfold enqueueAlert Delivery.accept Delivery.makeRoom
  by_cases hfull : s.alertQueue.entries.length ≥ alertQueueSize
  · -- a full queue is flushed, which leaves room
    have hfull' : s.delivery.queue.length ≥ alertQueueSize := hfull
    simp only [hfull, hfull', if_true]
    rw [dif_pos (flush_leaves_room env _)]
    refine (delivery_pushAlert hok _ (newAlert pid level reason stampNs) _).trans ?_
    rw [delivery_bridgeFlushAlerts hok]
    rfl
  · have hfull' : ¬ s.delivery.queue.length ≥ alertQueueSize := hfull
    have hroom : s.alertQueue.entries.length < alertQueueSize := Nat.lt_of_not_le hfull
    simp only [hfull, hfull', if_false]
    rw [dif_pos hroom]
    refine (delivery_pushAlert hok _ (newAlert pid level reason stampNs) _).trans ?_
    rfl

/-- **Refinement.** Every call into the bridge is a delivery step. -/
theorem delivery_bridgeStep (hok : env.Succeeds) (s : BridgeState) (op : BridgeOp) :
    (bridgeStep env s op).delivery = s.delivery.step (route s op) := by
  cases op with
  | flushAlerts => exact delivery_bridgeFlushAlerts hok s
  | signalMalicious pid reason nowNs stampNs =>
    have hlevel := applyThreatPolicy_level s.policyTable pid .malicious nowNs
    simp only [reduceCtorEq, false_and, or_false] at hlevel
    simp only [bridgeStep, bridgeSignalMalicious, bridgeSignal, route, signalRoute]
    split
    · rfl
    · have h := delivery_enqueueAlert hok
        { s with policyTable := (applyThreatPolicy s.policyTable pid .malicious nowNs).policyTable }
        pid (applyThreatPolicy s.policyTable pid .malicious nowNs).effective reason stampNs
      simp only [hlevel, decide_true] at h ⊢
      exact h
  | signalSuspicious pid reason nowNs stampNs =>
    simp only [bridgeStep, bridgeSignalSuspicious, bridgeSignal, route, signalRoute]
    split
    · rfl
    · exact delivery_enqueueAlert hok
        { s with policyTable := (applyThreatPolicy s.policyTable pid .suspicious nowNs).policyTable }
        pid (applyThreatPolicy s.policyTable pid .suspicious nowNs).effective reason stampNs

end refinement

/-! Lowering writes. -/

/-- The map after the writes of the log that succeeded. -/
def levelAfter (vmiAlertMap : U32 → Option ThreatLevel) (ws : List (VmiAlert × Bool)) : U32 → Option ThreatLevel :=
  writeAll vmiAlertMap ((ws.filter (·.2)).map (·.1.write))

/-- The write `w`, made after the writes `pre`, lowers the level stored for its pid. -/
def Lowers (vmiAlertMap : U32 → Option ThreatLevel) (pre : List (VmiAlert × Bool)) (w : VmiAlert × Bool) : Prop :=
  w.2 = true ∧ ∃ l, levelAfter vmiAlertMap pre w.1.pid = some l ∧ w.1.threatLevel < l

/-- A queued alert was dispatched at once exactly when it is malicious; the others are suspicious. -/
def QueueOk (q : List QueuedAlert) : Prop :=
  ∀ e ∈ q, (e.alert.threatLevel = .malicious ∧ e.sentImmediately = true) ∨
    (e.alert.threatLevel = .suspicious ∧ e.sentImmediately = false)

theorem Delivery.makeRoom_cases (d : Delivery) :
    d.queue.length ≥ alertQueueSize ∧ d.makeRoom = d.flush ∨ d.makeRoom = d := by
  unfold makeRoom
  split
  · next h => exact Or.inl ⟨h, rfl⟩
  · exact Or.inr rfl

theorem queueOk_step {d : Delivery} {r : Route} (hd : QueueOk d.queue)
    (hr : ∀ a, r = .accept a → a.threatLevel = .malicious ∨ a.threatLevel = .suspicious) :
    QueueOk (d.step r).queue := by
  cases r with
  | suppressed => exact hd
  | flush => intro e he; cases he
  | accept a =>
    intro e he
    have hroom : QueueOk d.makeRoom.queue := by
      rcases d.makeRoom_cases with ⟨_, h⟩ | h
      · rw [h]; intro e he; cases he
      · rw [h]; exact hd
    rcases List.mem_append.mp he with he | he
    · exact hroom e he
    · rw [List.mem_singleton] at he
      subst he
      rcases hr a rfl with h | h
      · exact Or.inl ⟨h, by simp [h]⟩
      · exact Or.inr ⟨h, by simp [h]⟩

/-- What a step appends to the write log: what it flushes, and a malicious alert it accepts. -/
theorem step_mapWrites (d : Delivery) (r : Route) :
    ∃ as : List VmiAlert, (d.step r).mapWrites = d.mapWrites ++ as.map (·, true) ∧
      ∀ a ∈ as, (r = .accept a ∧ a.threatLevel = .malicious) ∨
        (a ∈ pending d.queue ∧ (r = .flush ∨ (∃ b, r = .accept b) ∧ d.queue.length ≥ alertQueueSize)) := by
  cases r with
  | suppressed => exact ⟨[], by simp [Delivery.step], by simp⟩
  | flush => exact ⟨pending d.queue, rfl, fun a ha => Or.inr ⟨ha, Or.inl rfl⟩⟩
  | accept b =>
    -- the alert itself comes last, after what makes room for it
    have himm : ∀ a ∈ (if b.threatLevel = .malicious then [b] else []),
        Route.accept b = .accept a ∧ a.threatLevel = .malicious := by
      intro a ha
      split at ha
      · next h => rw [List.mem_singleton] at ha; subst ha; exact ⟨rfl, h⟩
      · cases ha
    rcases d.makeRoom_cases with ⟨hfull, h⟩ | h
    · refine ⟨pending d.queue ++ (if b.threatLevel = .malicious then [b] else []), ?_, ?_⟩
      · simp [Delivery.step, Delivery.accept, h, Delivery.write, Delivery.flush]
      · intro a ha
        rcases List.mem_append.mp ha with ha | ha
        · exact Or.inr ⟨ha, Or.inr ⟨⟨b, rfl⟩, hfull⟩⟩
        · exact Or.inl (himm a ha)
    · refine ⟨if b.threatLevel = .malicious then [b] else [], ?_, fun a ha => Or.inl (himm a ha)⟩
      simp [Delivery.step, Delivery.accept, h, Delivery.write]

theorem levelAfter_append (vmiAlertMap : U32 → Option ThreatLevel) (ws : List (VmiAlert × Bool)) (as : List VmiAlert) :
    levelAfter vmiAlertMap (ws ++ as.map (·, true)) = writeAll (levelAfter vmiAlertMap ws) (as.map VmiAlert.write) := by
  have hall : (as.map (fun a => (a, true))).filter (·.2) = as.map (·, true) := by
    rw [List.filter_eq_self]
    simp
  rw [levelAfter, levelAfter, List.filter_append, List.map_append, writeAll_append, hall, List.map_map]
  rfl

/-- The map is the initial one after the logged writes. -/
def Delivery.Logged (vmiAlertMap : U32 → Option ThreatLevel) (d : Delivery) : Prop :=
  d.map = levelAfter vmiAlertMap d.mapWrites

namespace Delivery.Logged
variable {vmiAlertMap : U32 → Option ThreatLevel} {d : Delivery}

theorem write (h : d.Logged vmiAlertMap) (as : List VmiAlert) : (d.write as).Logged vmiAlertMap := by
  unfold Logged Delivery.write
  rw [levelAfter_append, ← h]

theorem flush (h : d.Logged vmiAlertMap) : d.flush.Logged vmiAlertMap := h.write (pending d.queue)

theorem step (h : d.Logged vmiAlertMap) (r : Route) : (d.step r).Logged vmiAlertMap := by
  cases r with
  | suppressed => exact h
  | flush => exact h.flush
  | accept a =>
    have hroom : d.makeRoom.Logged vmiAlertMap := by
      rcases d.makeRoom_cases with ⟨_, hm⟩ | hm
      · rw [hm]; exact h.flush
      · rw [hm]; exact h
    exact hroom.write _

end Delivery.Logged

/-- The calls have a suspicious signal for the pid of `a` that the policy let through as `a`,
    and none of those after it emptied the queue. -/
def QueuedSince (env : MapEnv) (vmiAlertMap : U32 → Option ThreatLevel) (ops : List BridgeOp) (a : VmiAlert) : Prop :=
  ∃ earlier reason nowNs stampNs later, ops = earlier ++ .signalSuspicious a.pid reason nowNs stampNs :: later ∧
    route (bridgeRun env vmiAlertMap earlier) (.signalSuspicious a.pid reason nowNs stampNs) = .accept a ∧
    ∀ l op r, later = l ++ op :: r →
      ¬ Flushes (bridgeRun env vmiAlertMap (earlier ++ .signalSuspicious a.pid reason nowNs stampNs :: l)) op

section runs
variable {env : MapEnv} (hok : env.Succeeds) (vmiAlertMap : U32 → Option ThreatLevel)
include hok

theorem bridgeRun_snoc_delivery (ops : List BridgeOp) (op : BridgeOp) :
    (bridgeRun env vmiAlertMap (ops ++ [op])).delivery =
      (bridgeRun env vmiAlertMap ops).delivery.step (route (bridgeRun env vmiAlertMap ops) op) := by
  rw [bridgeRun, run_snoc, delivery_bridgeStep hok]
  rfl

theorem queueOk_bridgeStep (s : BridgeState) (op : BridgeOp) (hs : QueueOk s.delivery.queue) :
    QueueOk (bridgeStep env s op).delivery.queue := by
  rw [delivery_bridgeStep hok]
  refine queueOk_step hs fun a ha => ?_
  rcases route_accept ha with h | h
  · exact Or.inl h
  · exact Or.inr h.1

theorem queueOk_bridgeRun (ops : List BridgeOp) : QueueOk (bridgeRun env vmiAlertMap ops).alertQueue.entries :=
  run_inv (I := fun s : BridgeState => QueueOk s.delivery.queue) (fun s op => queueOk_bridgeStep hok s op)
    (fun e he => by cases he) ops

omit hok in
theorem QueuedSince.snoc {ops : List BridgeOp} {a : VmiAlert} {op : BridgeOp}
    (h : QueuedSince env vmiAlertMap ops a) (hop : ¬ Flushes (bridgeRun env vmiAlertMap ops) op) :
    QueuedSince env vmiAlertMap (ops ++ [op]) a := by
  obtain ⟨earlier, reason, nowNs, stampNs, later, rfl, haccept, hno⟩ := h
  refine ⟨earlier, reason, nowNs, stampNs, later ++ [op], by simp, haccept, fun l o r hsplit => ?_⟩
  rcases List.eq_nil_or_concat r with rfl | ⟨r, x, rfl⟩
  · obtain ⟨rfl, hlast⟩ := List.append_inj' hsplit rfl
    rw [← List.singleton_injective hlast]
    exact hop
  · have hsame : later ++ [op] = (l ++ o :: r) ++ [x] := by simpa using hsplit
    exact hno l o r (List.append_inj' hsame rfl).1

/-- An alert waits in the queue since an accepted suspicious signal for its pid. -/
theorem queuedSince_of_mem (ops : List BridgeOp) (a : VmiAlert)
    (h : ⟨a, false⟩ ∈ (bridgeRun env vmiAlertMap ops).alertQueue.entries) :
    QueuedSince env vmiAlertMap ops a := by
  induction ops using List.reverseRecOn with
  | nil => cases h
  | append_singleton ops op ih =>
    have hstep := congrArg Delivery.queue (bridgeRun_snoc_delivery hok vmiAlertMap ops op)
    change (bridgeRun env vmiAlertMap (ops ++ [op])).alertQueue.entries = _ at hstep
    rw [hstep] at h
    cases hr : route (bridgeRun env vmiAlertMap ops) op with
    | suppressed =>
      rw [hr] at h
      exact (ih h).snoc vmiAlertMap (by simp [Flushes, hr])
    | flush => rw [hr] at h; cases h
    | accept b =>
      rw [hr] at h
      rcases List.mem_append.mp h with h | h
      · -- it was there before, and the call did not have to make room
        by_cases hfull : (bridgeRun env vmiAlertMap ops).delivery.queue.length ≥ alertQueueSize
        · rw [Delivery.makeRoom, if_pos hfull] at h
          cases h
        · rw [Delivery.makeRoom, if_neg hfull] at h
          exact (ih h).snoc vmiAlertMap (by simp only [Flushes, hr]; exact hfull)
      · rw [List.mem_singleton, QueuedAlert.mk.injEq] at h
        obtain ⟨rfl, hnot⟩ := h
        rcases route_accept hr with hb | ⟨_, reason, nowNs, stampNs, rfl⟩
        · simp [hb] at hnot
        · exact ⟨ops, reason, nowNs, stampNs, [], rfl, hr, fun l o r hl => by simp at hl⟩

/-- The map is what the log says was written to it. -/
theorem vmiAlertMap_bridgeRun (ops : List BridgeOp) :
    (bridgeRun env vmiAlertMap ops).vmiAlertMap = levelAfter vmiAlertMap (bridgeRun env vmiAlertMap ops).mapWrites := by
  refine run_inv (I := fun s : BridgeState => s.delivery.Logged vmiAlertMap) (fun s op hs => ?_)
    (show (bridgeInit vmiAlertMap).delivery.Logged vmiAlertMap from rfl) ops
  rw [delivery_bridgeStep hok]
  exact hs.step (route s op)

/-- **Only a batched suspicious alert lowers a level.** In every run, a write that lowers
    the level stored for a pid is made by a call that flushes the queue; it writes
    suspicious over malicious, for an alert that was waiting in the queue since an
    accepted suspicious signal for that pid. -/
theorem lowering_write_is_batched (ops : List BridgeOp) {pre post : List (VmiAlert × Bool)} {w : VmiAlert × Bool}
    (hlog : (bridgeRun env vmiAlertMap ops).mapWrites = pre ++ w :: post) (hlow : Lowers vmiAlertMap pre w) :
    levelAfter vmiAlertMap pre w.1.pid = some .malicious ∧ w.1.threatLevel = .suspicious ∧
      ∃ before op after, ops = before ++ op :: after ∧
        (bridgeRun env vmiAlertMap before).mapWrites.length ≤ pre.length ∧
        pre.length < (bridgeRun env vmiAlertMap (before ++ [op])).mapWrites.length ∧
        Flushes (bridgeRun env vmiAlertMap before) op ∧
        ⟨w.1, false⟩ ∈ (bridgeRun env vmiAlertMap before).alertQueue.entries ∧
        QueuedSince env vmiAlertMap before w.1 := by
  induction ops using List.reverseRecOn generalizing post with
  | nil => simp [bridgeRun, bridgeInit] at hlog
  | append_singleton ops op ih =>
    obtain ⟨as, happ, has⟩ := step_mapWrites (bridgeRun env vmiAlertMap ops).delivery
      (route (bridgeRun env vmiAlertMap ops) op)
    have hstep := congrArg Delivery.mapWrites (bridgeRun_snoc_delivery hok vmiAlertMap ops op)
    rw [happ] at hstep
    change (bridgeRun env vmiAlertMap (ops ++ [op])).mapWrites = (bridgeRun env vmiAlertMap ops).mapWrites ++ _ at hstep
    have hmade : pre.length < (bridgeRun env vmiAlertMap (ops ++ [op])).mapWrites.length := by
      rw [hlog]; simp
    rw [hstep] at hlog
    -- the write is in the log already, or the last call made it
    by_cases hin : pre.length < (bridgeRun env vmiAlertMap ops).mapWrites.length
    · obtain ⟨post', hpost⟩ := split_of_append_eq hlog hin
      obtain ⟨h1, h2, before, op', after, hops, hrest⟩ := ih hpost
      exact ⟨h1, h2, before, op', after ++ [op], by rw [hops]; simp, hrest⟩
    · have hw : w ∈ as.map (·, true) := mem_of_append_eq hlog (by omega)
      obtain ⟨a, ha, rfl⟩ := List.mem_map.mp hw
      obtain ⟨_, l, hl, hlt⟩ := hlow
      rcases has a ha with ⟨_, hmal⟩ | ⟨hpend, hroute⟩
      · rw [hmal] at hlt
        exact absurd hlt (by cases l <;> decide)
      · have hq : ⟨a, false⟩ ∈ (bridgeRun env vmiAlertMap ops).alertQueue.entries := mem_pending.mp hpend
        have hsus : a.threatLevel = .suspicious := by
          rcases queueOk_bridgeRun hok vmiAlertMap ops _ hq with ⟨_, h⟩ | ⟨h, _⟩
          · cases h
          · exact h
        have hflush : Flushes (bridgeRun env vmiAlertMap ops) op := by
          unfold Flushes
          rcases hroute with h | ⟨⟨b, h⟩, hfull⟩
          · rw [h]; trivial
          · rw [h]; exact hfull
        rw [hsus] at hlt
        have hlm : l = .malicious := by revert hlt; cases l <;> decide
        exact ⟨hlm ▸ hl, hsus, ops, op, [], rfl, by omega, hmade, hflush, hq,
          queuedSince_of_mem hok vmiAlertMap ops a hq⟩

end runs

/-- The clock readings of the calls, in the order they are made. -/
def clockReadings (ops : List BridgeOp) : List U64 :=
  ops.flatMap fun
    | .signalMalicious _ _ nowNs stampNs => [nowNs, stampNs]
    | .signalSuspicious _ _ nowNs stampNs => [nowNs, stampNs]
    | .flushAlerts => []

/-- A kernel that refuses nothing. -/
def acceptingEnv : MapEnv := ⟨true, fun _ => true⟩

theorem acceptingEnv_succeeds : acceptingEnv.Succeeds := ⟨rfl, fun _ => rfl⟩

/-- A malicious signal, a suspicious one two seconds later, and a flush. -/
def downgradeOps : List BridgeOp :=
  [.signalMalicious 7 none 1 1, .signalSuspicious 7 none 2000000001 2000000001, .flushAlerts]

theorem downgradeOps_mapWrites : (bridgeRun acceptingEnv (fun _ => none) downgradeOps).mapWrites =
    [(newAlert 7 .malicious none 1, true)] ++ (newAlert 7 .suspicious none 2000000001, true) :: [] := by
  decide +kernel

theorem downgradeOps_lowers : Lowers (fun _ => none) [(newAlert 7 .malicious none 1, true)]
    (newAlert 7 .suspicious none 2000000001, true) :=
  ⟨rfl, .malicious, by decide, by decide⟩

/-- The level stored for a pid can decrease. -/
theorem stored_level_decreases :
    ¬ ∀ (env : MapEnv) (vmiAlertMap : U32 → Option ThreatLevel) (ops : List BridgeOp),
      env.Succeeds → (clockReadings ops).Pairwise (· ≤ ·) →
      ∀ pre w post, (bridgeRun env vmiAlertMap ops).mapWrites = pre ++ w :: post → ¬ Lowers vmiAlertMap pre w :=
  fun h => h acceptingEnv (fun _ => none) downgradeOps acceptingEnv_succeeds (by decide) _ _ _
    downgradeOps_mapWrites downgradeOps_lowers

theorem downgrade_is_batched :
    ∃ before op after, downgradeOps = before ++ op :: after ∧
      Flushes (bridgeRun acceptingEnv (fun _ => none) before) op ∧
      QueuedSince acceptingEnv (fun _ => none) before (newAlert 7 .suspicious none 2000000001) := by
  obtain ⟨_, _, before, op, after, hops, _, _, hflush, _, hqueued⟩ := lowering_write_is_batched
    acceptingEnv_succeeds (fun _ => none) downgradeOps downgradeOps_mapWrites downgradeOps_lowers
  exact ⟨before, op, after, hops, hflush, hqueued⟩

/-! The latest signal. -/

/-- The last entry for `p` in the queue. -/
def lastQueued (p : U32) (q : List QueuedAlert) : Option QueuedAlert :=
  lastFor p (q.map (fun e => (e.alert.pid, e)))

/-- For every pid that has undispatched alerts, the last alert of that pid is one of them:
    no alert dispatched at once stands behind the last one still waiting. -/
def InOrder (q : List QueuedAlert) : Prop :=
  ∀ e ∈ q, e.sentImmediately = false → (lastQueued e.alert.pid q).map (·.sentImmediately) = some false

instance (q : List QueuedAlert) : Decidable (InOrder q) := inferInstanceAs (Decidable (∀ e ∈ q, _ → _))

instance (s : BridgeState) (op : BridgeOp) : Decidable (Flushes s op) := by
  unfold Flushes; split <;> infer_instance

/-- The map holds the level of the latest accepted signal of every pid that had one. -/
def LatestWins (s : BridgeState) : Prop :=
  ∀ p l, lastFor p s.accepted = some l → s.vmiAlertMap p = some l

theorem lastQueued_append (p : U32) (q : List QueuedAlert) (e : QueuedAlert) :
    lastQueued p (q ++ [e]) = if e.alert.pid = p then some e else lastQueued p q := by
  rw [lastQueued, List.map_append, lastFor_append]
  by_cases h : e.alert.pid = p <;> simp [lastQueued, h]

theorem lastQueued_mem {p : U32} {q : List QueuedAlert} {e : QueuedAlert} (h : lastQueued p q = some e) :
    e ∈ q ∧ e.alert.pid = p := by
  obtain ⟨e', he', heq⟩ := List.mem_map.mp (lastFor_mem h)
  rw [Prod.mk.injEq] at heq
  obtain ⟨rfl, rfl⟩ := heq
  exact ⟨he', rfl⟩

theorem lastQueued_eq_none {p : U32} {q : List QueuedAlert} : lastQueued p q = none ↔ ∀ e ∈ q, e.alert.pid ≠ p := by
  simp [lastQueued, lastFor_eq_none]

/-- A pid whose last alert still waits gets that alert's level from the flush. -/
theorem lastFor_pending_of_waiting {p : U32} {q : List QueuedAlert} {e : QueuedAlert}
    (h : lastQueued p q = some e) (hw : e.sentImmediately = false) :
    lastFor p ((pending q).map VmiAlert.write) = some e.alert.threatLevel := by
  induction q using List.reverseRecOn with
  | nil => simp [lastQueued] at h
  | append_singleton q x ih =>
    rw [lastQueued_append] at h
    have hp : pending (q ++ [x]) = pending q ++ pending [x] := by simp [pending]
    rw [hp, List.map_append, lastFor_append]
    split at h
    · next hx =>
      cases h
      simp [pending, hw, VmiAlert.write, hx]
    · next hx =>
      rw [ih h]
      cases hs : x.sentImmediately <;> simp [pending, hs, VmiAlert.write, hx]

/-- A pid with nothing waiting gets nothing from the flush. -/
theorem lastFor_pending_of_dispatched {p : U32} {q : List QueuedAlert}
    (h : ∀ e ∈ q, e.alert.pid = p → e.sentImmediately = true) :
    lastFor p ((pending q).map VmiAlert.write) = none := by
  rw [lastFor_eq_none]
  intro w hw heq
  obtain ⟨a, ha, rfl⟩ := List.mem_map.mp hw
  have := h _ (mem_pending.mp ha) heq
  cases this

namespace Delivery

/-- The last queued alert of a pid is its latest accepted signal. -/
def QueueLatest (d : Delivery) : Prop :=
  ∀ p e, lastQueued p d.queue = some e → lastFor p d.accepted = some e.alert.threatLevel

/-- What the map already shows: the latest level of a pid with nothing queued, and of a
    pid whose last queued alert was dispatched. -/
def MapLatest (d : Delivery) : Prop :=
  (∀ p l, lastQueued p d.queue = none → lastFor p d.accepted = some l → d.map p = some l) ∧
  ∀ p e, lastQueued p d.queue = some e → e.sentImmediately = true → d.map p = some e.alert.threatLevel

theorem QueueLatest.step {d : Delivery} (h : d.QueueLatest) (r : Route) : (d.step r).QueueLatest := by
  cases r with
  | suppressed => exact h
  | flush => intro p e he; simp [Delivery.step, flush, lastQueued] at he
  | accept a =>
    have hroom : d.makeRoom.QueueLatest := by
      rcases d.makeRoom_cases with ⟨_, hm⟩ | hm
      · rw [hm]; intro p e he; simp [flush, lastQueued] at he
      · rw [hm]; exact h
    intro p e he
    change lastQueued p (d.makeRoom.queue ++ [⟨a, a.threatLevel = .malicious⟩]) = some e at he
    change lastFor p (d.makeRoom.accepted ++ [a.write]) = some e.alert.threatLevel
    rw [lastQueued_append] at he
    rw [lastFor_append]
    split at he
    · next ha =>
      cases he
      simp only at ha
      simp [VmiAlert.write, ha]
    · next ha =>
      simp only at ha
      simp [VmiAlert.write, ha, hroom p e he]

theorem flush_map (d : Delivery) (p : U32) :
    d.flush.map p = (lastFor p ((pending d.queue).map VmiAlert.write)).or (d.map p) := writeAll_apply ..

/-- A flush of a queue in order leaves the latest accepted level of every pid in the map. -/
theorem flush_latest {d : Delivery} (hq : d.QueueLatest) (hm : d.MapLatest) (ho : InOrder d.queue)
    (p : U32) (l : ThreatLevel) (hl : lastFor p d.accepted = some l) : d.flush.map p = some l := by
  rw [flush_map]
  cases hlast : lastQueued p d.queue with
  | none =>
    have hnone := lastQueued_eq_none.mp hlast
    rw [lastFor_pending_of_dispatched (fun e he hp => absurd hp (hnone e he)), Option.none_or]
    exact hm.1 p l hlast hl
  | some e =>
    have hle : l = e.alert.threatLevel := by
      have := hq p e hlast
      rw [hl, Option.some.injEq] at this
      exact this
    cases hsent : e.sentImmediately with
    | false => rw [lastFor_pending_of_waiting hlast hsent, hle]; rfl
    | true =>
      -- the last alert of `p` was dispatched, so by the order none of `p` waits
      have hall : ∀ x ∈ d.queue, x.alert.pid = p → x.sentImmediately = true := by
        intro x hx hp
        cases hxs : x.sentImmediately with
        | true => rfl
        | false =>
          have := ho x hx hxs
          rw [hp, hlast, Option.map_some, hsent] at this
          cases this
      rw [lastFor_pending_of_dispatched hall, Option.none_or, hle]
      exact hm.2 p e hlast hsent

theorem MapLatest.flush {d : Delivery} (hq : d.QueueLatest) (hm : d.MapLatest) (ho : InOrder d.queue) :
    d.flush.MapLatest := by
  constructor
  · intro p l _ hl
    exact flush_latest hq hm ho p l hl
  · intro p e he
    simp [Delivery.flush, lastQueued] at he

theorem MapLatest.push {d : Delivery} (hm : d.MapLatest) (a : VmiAlert) :
    ({ d.write (if a.threatLevel = .malicious then [a] else []) with
        queue := d.queue ++ [⟨a, a.threatLevel = .malicious⟩]
        accepted := d.accepted ++ [a.write] } : Delivery).MapLatest := by
  have hmap : ∀ p, a.pid ≠ p → (d.write (if a.threatLevel = .malicious then [a] else [])).map p = d.map p := by
    intro p hp
    split
    · simp [write, VmiAlert.write, Function.update_of_ne (Ne.symm hp)]
    · rw [write_nil]
  constructor
  · intro p l hnone hl
    dsimp only at hnone hl ⊢
    rw [lastQueued_append] at hnone
    split at hnone
    · cases hnone
    · next hp =>
      dsimp only at hp
      rw [hmap p hp]
      refine hm.1 p l hnone ?_
      rw [lastFor_append] at hl
      simpa [VmiAlert.write, hp] using hl
  · intro p e hsome hsent
    dsimp only at hsome ⊢
    rw [lastQueued_append] at hsome
    split at hsome
    · next hp =>
      cases hsome
      dsimp only at hp hsent ⊢
      have hmal : a.threatLevel = .malicious := by simpa using hsent
      rw [if_pos hmal, ← hp]
      simp [write, VmiAlert.write]
    · next hp =>
      dsimp only at hp
      rw [hmap p hp]
      exact hm.2 p e hsome hsent

theorem MapLatest.step {d : Delivery} (hq : d.QueueLatest) (hm : d.MapLatest) {r : Route}
    (ho : r = .flush ∨ (∃ b, r = .accept b) ∧ d.queue.length ≥ alertQueueSize → InOrder d.queue) :
    (d.step r).MapLatest := by
  cases r with
  | suppressed => exact hm
  | flush => exact hm.flush hq (ho (Or.inl rfl))
  | accept a =>
    have hroom : d.makeRoom.MapLatest := by
      rcases d.makeRoom_cases with ⟨hfull, h⟩ | h
      · rw [h]; exact hm.flush hq (ho (Or.inr ⟨⟨a, rfl⟩, hfull⟩))
      · rw [h]; exact hm
    exact hroom.push a

/-- A flush that finds a dispatched alert of a pid behind the last waiting one leaves
    that pid at the older level. -/
theorem flush_not_latest {d : Delivery} (hk : QueueOk d.queue) (hq : d.QueueLatest) (ho : ¬ InOrder d.queue) :
    ∃ p l, lastFor p d.accepted = some l ∧ d.flush.map p ≠ some l := by
  unfold InOrder at ho
  push Not at ho
  obtain ⟨e, he, hwait, hlast⟩ := ho
  cases hl : lastQueued e.alert.pid d.queue with
  | none => exact absurd rfl (lastQueued_eq_none.mp hl e he)
  | some x =>
    rw [hl, Option.map_some, ne_eq, Option.some.injEq, Bool.not_eq_false] at hlast
    have hx : x.alert.threatLevel = .malicious := by
      rcases hk x (lastQueued_mem hl).1 with h | h
      · exact h.1
      · rw [hlast] at h; cases h.2
    refine ⟨e.alert.pid, .malicious, hx ▸ hq _ x hl, ?_⟩
    rw [flush_map]
    -- the flush writes some waiting alert of the pid, and waiting alerts are suspicious
    have hpend : e.alert ∈ pending d.queue := mem_pending.mpr (hwait ▸ he)
    cases hp : lastFor e.alert.pid ((pending d.queue).map VmiAlert.write) with
    | none => exact absurd rfl (lastFor_eq_none.mp hp _ (List.mem_map_of_mem hpend))
    | some l =>
      obtain ⟨a, ha, hal⟩ := List.mem_map.mp (lastFor_mem hp)
      rw [VmiAlert.write, Prod.mk.injEq] at hal
      rcases hk _ (mem_pending.mp ha) with h | h
      · cases h.2
      · rw [← hal.2, h.1]
        simp

end Delivery

/-- A call that flushes finds the queue in order. -/
def FlushesInOrder (s : BridgeState) (op : BridgeOp) : Prop := Flushes s op → InOrder s.alertQueue.entries

instance (s : BridgeState) (op : BridgeOp) : Decidable (FlushesInOrder s op) :=
  inferInstanceAs (Decidable (_ → _))

section latest
variable {env : MapEnv} (hok : env.Succeeds)
include hok

theorem latestWins_flushAlerts (s : BridgeState) : LatestWins (bridgeStep env s .flushAlerts) ↔
    ∀ p l, lastFor p s.accepted = some l → s.delivery.flush.map p = some l := by
  have hflush := delivery_bridgeStep hok s .flushAlerts
  have hacc : (bridgeStep env s .flushAlerts).accepted = s.accepted := congrArg Delivery.accepted hflush
  have hmap : (bridgeStep env s .flushAlerts).vmiAlertMap = s.delivery.flush.map := congrArg Delivery.map hflush
  rw [LatestWins, hacc, hmap]

theorem queueLatest_bridgeStep (s : BridgeState) (op : BridgeOp) (hs : s.delivery.QueueLatest) :
    (bridgeStep env s op).delivery.QueueLatest := by
  rw [delivery_bridgeStep hok]
  exact hs.step _

theorem mapLatest_bridgeStep (s : BridgeState) (op : BridgeOp) (hq : s.delivery.QueueLatest)
    (hm : s.delivery.MapLatest) (ho : FlushesInOrder s op) : (bridgeStep env s op).delivery.MapLatest := by
  rw [delivery_bridgeStep hok]
  refine hm.step hq fun hr => ho ?_
  unfold Flushes
  rcases hr with h | ⟨⟨b, h⟩, hfull⟩
  · rw [h]; trivial
  · rw [h]; exact hfull

omit hok in
theorem latest_bridgeInit (vmiAlertMap : U32 → Option ThreatLevel) :
    (bridgeInit vmiAlertMap).delivery.QueueLatest ∧ (bridgeInit vmiAlertMap).delivery.MapLatest := by
  refine ⟨fun p e he => ?_, fun p l _ hl => ?_, fun p e he => ?_⟩
  · simp [BridgeState.delivery, bridgeInit, AlertQueue.empty, lastQueued] at he
  · simp [BridgeState.delivery, bridgeInit] at hl
  · simp [BridgeState.delivery, bridgeInit, AlertQueue.empty, lastQueued] at he

/-- **When the latest signal wins.** In a run whose flushes all find the queue in order,
    every `bridge_flush_alerts` leaves each pid at the level of its latest accepted signal;
    and in any run, an explicit flush that finds the queue out of order does not. -/
theorem latest_wins_of_in_order (vmiAlertMap : U32 → Option ThreatLevel) (ops : List BridgeOp) :
    (Along (bridgeStep env) FlushesInOrder (bridgeInit vmiAlertMap) ops →
      Along (bridgeStep env) (fun s op => op = .flushAlerts → LatestWins (bridgeStep env s op))
        (bridgeInit vmiAlertMap) ops) ∧
    Along (bridgeStep env)
      (fun s op => op = .flushAlerts → ¬ InOrder s.alertQueue.entries → ¬ LatestWins (bridgeStep env s op))
      (bridgeInit vmiAlertMap) ops := by
  constructor
  · intro h
    refine Along.strengthen (I := fun s : BridgeState => s.delivery.QueueLatest ∧ s.delivery.MapLatest) ?_ ?_ h
      (latest_bridgeInit vmiAlertMap)
    · rintro s op ⟨hq, hm⟩ ho
      exact ⟨queueLatest_bridgeStep hok s op hq, mapLatest_bridgeStep hok s op hq hm ho⟩
    · rintro s op ⟨hq, hm⟩ ho rfl
      rw [latestWins_flushAlerts hok]
      exact Delivery.flush_latest hq hm (ho trivial)
  · refine Along.of_splits fun before op _ _ => ?_
    rintro rfl hout hlatest
    have hq : (bridgeRun env vmiAlertMap before).delivery.QueueLatest :=
      run_inv (I := fun s : BridgeState => s.delivery.QueueLatest) (queueLatest_bridgeStep hok)
        (latest_bridgeInit vmiAlertMap).1 before
    rw [latestWins_flushAlerts hok] at hlatest
    obtain ⟨p, l, hl, hne⟩ := Delivery.flush_not_latest (queueOk_bridgeRun hok vmiAlertMap before) hq hout
    exact hne (hlatest p l hl)

end latest

/-- A suspicious signal, and a malicious one just after it. -/
def overtakenSignals : List BridgeOp := [.signalSuspicious 7 none 1 1, .signalMalicious 7 none 2 2]

/-- The older of two signals can win: the flush replays the suspicious alert of pid 7 over
    the malicious level written when the later signal came in. -/
theorem latest_signal_overtaken :
    ¬ ∀ (env : MapEnv) (vmiAlertMap : U32 → Option ThreatLevel) (ops : List BridgeOp),
      env.Succeeds → (clockReadings ops).Pairwise (· ≤ ·) →
      Along (bridgeStep env) (fun s op => op = .flushAlerts → LatestWins (bridgeStep env s op))
        (bridgeInit vmiAlertMap) ops := by
  intro h
  have hrun := h acceptingEnv (fun _ => none) (overtakenSignals ++ [.flushAlerts]) acceptingEnv_succeeds (by decide)
  have hlast := hrun.at_split rfl 7 .malicious (by decide +kernel)
  exact absurd hlast (by decide +kernel)

/-- The same signals with a flush between them. -/
def flushedSignals : List BridgeOp :=
  [.signalSuspicious 7 none 1 1, .flushAlerts, .signalMalicious 7 none 2 2]

theorem latest_wins_flush_between :
    LatestWins (bridgeStep acceptingEnv (bridgeRun acceptingEnv (fun _ => none) flushedSignals) .flushAlerts) := by
  have hrun := (latest_wins_of_in_order acceptingEnv_succeeds (fun _ => none)
    (flushedSignals ++ [.flushAlerts])).1 (by decide +kernel)
  exact hrun.at_split rfl

end SentinelStack.Vmi
