import SentinelStack.Lib.Printf
import SentinelStack.Vmi.Bridge

/- The alert stream of the bridge: `stream_send_alert`, with the connection it
   makes when it needs one and the wait before it tries again.

   Where the stream goes is settled by `parse_stream_config`; what `socket`,
   `inet_pton`, `connect`, `popen` and the write return is an argument of each
   call. Besides its state a call tells the attempts and the writes it made
   (`StreamEffect`), so the failures of a run can be read off its history.

   The wait is kept in two words, the time of the next attempt and the wait after
   that one, which every failure moves on and every connection resets. Main
   result: `stream_backoff` — while there is no connection, an alert makes an
   attempt if and only if nothing has failed since the last one was made, or the
   last of the `k` failures is `min (2 ^ (k - 1)) 30` seconds old by the alert's
   own time. -/
namespace SentinelStack.Vmi
open SentinelStack.Lib

inductive StreamMode where
  | tcp
  | helper
  deriving DecidableEq, Repr

/-- What `parse_stream_config` settles, apart from the target. -/
structure StreamConfig where
  enabled : Bool
  mode : StreamMode
  includeMetadata : Bool
  deriving DecidableEq, Repr

/-- `getenv`, where an empty value counts as none. -/
def envValue (getenv : CStr → Option CStr) (key : CStr) : Option CStr := (getenv key).filter (· ≠ [])

def envEnabled (getenv : CStr → Option CStr) (key : CStr) (default : Bool) : Bool :=
  match envValue getenv key with
  | none => default
  | some value =>
    if value = ascii "1" ∨ value = ascii "true" ∨ value = ascii "yes" then true
    else if value = ascii "0" ∨ value = ascii "false" ∨ value = ascii "no" then false
    else default

def parseStreamConfig (getenv : CStr → Option CStr) : StreamConfig :=
  let streamMode := strncpyz 16 ((envValue getenv (ascii "VMI_ALERT_STREAM_MODE")).getD (ascii "tcp"))
  let helperCmd := strncpyz 256 ((envValue getenv (ascii "VMI_ALERT_GRPC_HELPER_CMD")).getD [])
  -- a mode that is neither is taken for tcp
  let mode : StreamMode := if streamMode = ascii "helper" then .helper else .tcp
  let enabled := envEnabled getenv (ascii "VMI_ALERT_STREAM_ENABLE") false || helperCmd ≠ []
  { enabled := enabled && ¬ (mode = .helper ∧ helperCmd = [])
    mode := mode
    includeMetadata := envEnabled getenv (ascii "VMI_ALERT_HELPER_INCLUDE_METADATA") false }

/-! The payload. -/

def threatTypeFromLevel : ThreatLevel → CStr
  | .malicious => ascii "malicious"
  | .suspicious => ascii "suspicious"
  | .clean => ascii "clean"

/-- In hundredths. -/
def threatConfidenceFromLevel : ThreatLevel → Nat
  | .malicious => 98
  | .suspicious => 65
  | .clean => 10

/-- The loop of `json_escape_string`, with `w` bytes of `dst` written. -/
def jsonEscapeLoop (dstSize : Nat) : Nat → CStr → CStr
  | _, [] => []
  | w, c :: src =>
    if w + 1 ≥ dstSize then []
    else if c = 0x22 ∨ c = 0x5C then
      if w + 2 ≥ dstSize then [] else 0x5C :: c :: jsonEscapeLoop dstSize (w + 2) src
    else if c = newline then
      if w + 2 ≥ dstSize then [] else 0x5C :: 0x6E :: jsonEscapeLoop dstSize (w + 2) src
    else if c < 0x20 then 0x3F :: jsonEscapeLoop dstSize (w + 1) src
    else c :: jsonEscapeLoop dstSize (w + 1) src

/-- The string `json_escape_string` leaves in a `dst` of that size. -/
def jsonEscapeString (src : CStr) (dstSize : Nat) : CStr := jsonEscapeLoop dstSize 0 src

/-- `%.2f` of a number of hundredths. -/
def fmtHundredths (n : Nat) : CStr := fmtDec (n / 100) ++ ascii "." ++ fmtDecPadded 2 (n % 100)

/-- What `snprintf` makes of an alert: the strict schema for a helper that wants no metadata, or the
    whole alert. -/
def streamPayload (cfg : StreamConfig) (alert : VmiAlert) : CStr :=
  let threatType := threatTypeFromLevel alert.threatLevel
  let confidence := fmtHundredths (threatConfidenceFromLevel alert.threatLevel)
  let reasonJson := jsonEscapeString alert.reason (2 * vmiAlertReasonMax + 8)
  if cfg.mode = .helper ∧ ¬ cfg.includeMetadata then
    ascii "\x7b\"pid\":" ++ fmtDec alert.pid.toNat ++ ascii ",\"threat_type\":\"" ++ threatType ++
      ascii "\",\"confidence\":" ++ confidence ++ ascii "\x7d\n"
  else
    ascii "\x7b\"pid\":" ++ fmtDec alert.pid.toNat ++ ascii ",\"threat_level\":" ++ fmtDec alert.threatLevel.value ++
      ascii ",\"threat_type\":\"" ++ threatType ++ ascii "\",\"confidence\":" ++ confidence ++
      ascii ",\"timestamp_ns\":" ++ fmtDec alert.timestampNs.toNat ++ ascii ",\"reason\":\"" ++ reasonJson ++
      ascii "\"\x7d\n"

/-- `sizeof(payload)`. -/
def streamPayloadSize : Nat := 512

theorem length_jsonEscapeLoop_le (dstSize w : Nat) (src : CStr) :
    (jsonEscapeLoop dstSize w src).length ≤ 2 * src.length := by
  induction src generalizing w with
  | nil => exact Nat.le_refl 0
  | cons c src ih =>
    have hone := ih (w + 1)
    have htwo := ih (w + 2)
    rw [jsonEscapeLoop]
    repeat' split
    all_goals simp only [List.length_cons, List.length_nil]
    all_goals omega

/-- A reason of an alert leaves room in the payload: none is given up for its length. -/
theorem streamPayload_fits (cfg : StreamConfig) {alert : VmiAlert} (h : alert.reason.length < vmiAlertReasonMax) :
    (streamPayload cfg alert).length < streamPayloadSize := by
  have hpid := length_fmtDec_u32 alert.pid
  have hts := length_fmtDec_u64 alert.timestampNs
  have hreason : (jsonEscapeString alert.reason (2 * vmiAlertReasonMax + 8)).length ≤ 2 * alert.reason.length :=
    length_jsonEscapeLoop_le ..
  have hlevel : (fmtDec alert.threatLevel.value).length ≤ 1 ∧ (threatTypeFromLevel alert.threatLevel).length ≤ 10 ∧
      (fmtHundredths (threatConfidenceFromLevel alert.threatLevel)).length ≤ 4 := by
    cases alert.threatLevel <;> decide +kernel
  have hwords : (ascii "\x7b\"pid\":").length + (ascii ",\"threat_level\":").length +
      (ascii ",\"threat_type\":\"").length + (ascii "\",\"confidence\":").length + (ascii "\x7d\n").length +
      (ascii ",\"timestamp_ns\":").length + (ascii ",\"reason\":\"").length + (ascii "\"\x7d\n").length ≤ 100 := by
    decide +kernel
  unfold vmiAlertReasonMax at h
  unfold streamPayload
  dsimp only
  split
  · simp only [List.length_append, streamPayloadSize]
    omega
  · simp only [List.length_append, streamPayloadSize]
    omega

/-! The connection. -/

def streamReconnectBaseNs : U64 := 1 * 1000000000
def streamReconnectMaxNs : U64 := 30 * 1000000000

/-- `stream_fd >= 0`, `stream_helper_fp`, and the two words of the wait. -/
structure StreamState where
  fdOpen : Bool
  helperOpen : Bool
  nextReconnectNs : U64
  backoffNs : U64
  deriving DecidableEq, Repr

/-- The state `bridge_init` leaves. -/
def streamInit : StreamState := ⟨false, false, 0, streamReconnectBaseNs⟩

/-- The stream of the mode is there. -/
def StreamState.connected (s : StreamState) : StreamMode → Bool
  | .tcp => s.fdOpen
  | .helper => s.helperOpen

/-- One call of `stream_send_alert`: the alert, and what the calls it makes return. -/
structure StreamCall where
  alert : VmiAlert
  socketOk : Bool
  hostOk : Bool
  connectOk : Bool
  popenOk : Bool
  sent : Bool
  deriving DecidableEq, Repr

/-- A connection attempt or a write, and whether it succeeded. -/
inductive StreamEffect where
  | attempted (ok : Bool)
  | wrote (ok : Bool)
  deriving DecidableEq, Repr

/-- Whether a function returned 0, what it did, and the state after it. -/
structure StreamResult where
  ok : Bool
  effects : List StreamEffect
  state : StreamState
  deriving DecidableEq, Repr

def streamDisconnect (s : StreamState) : StreamState := { s with fdOpen := false, helperOpen := false }

def scheduleStreamReconnect (s : StreamState) (nowNs : U64) : StreamState :=
  { s with
    nextReconnectNs := nowNs + s.backoffNs
    backoffNs := if s.backoffNs < streamReconnectMaxNs / 2 then s.backoffNs * 2 else streamReconnectMaxNs }

/-- The wait of a new connection. -/
def resetBackoff (s : StreamState) : StreamState :=
  { s with nextReconnectNs := 0, backoffNs := streamReconnectBaseNs }

def streamConnectIfNeeded (cfg : StreamConfig) (s : StreamState) (call : StreamCall) : StreamResult :=
  let nowNs := call.alert.timestampNs
  if ¬ cfg.enabled then ⟨false, [], s⟩
  else if s.connected cfg.mode then ⟨true, [], s⟩
  else if s.nextReconnectNs ≠ 0 ∧ nowNs < s.nextReconnectNs then ⟨false, [], s⟩
  else
    match cfg.mode with
    | .helper =>
      if ¬ call.popenOk then ⟨false, [.attempted false], scheduleStreamReconnect s nowNs⟩
      else ⟨true, [.attempted true], resetBackoff { s with helperOpen := true }⟩
    | .tcp =>
      if ¬ call.socketOk then ⟨false, [.attempted false], scheduleStreamReconnect s nowNs⟩
      else if ¬ call.hostOk then ⟨false, [.attempted false], scheduleStreamReconnect s nowNs⟩
      else if ¬ call.connectOk then ⟨false, [.attempted false], scheduleStreamReconnect s nowNs⟩
      else ⟨true, [.attempted true], resetBackoff { s with fdOpen := true }⟩

/-- The write of the payload; one that fails, or is cut short, ends the connection. -/
def streamWrite (r : StreamResult) (call : StreamCall) : StreamResult :=
  if call.sent then ⟨true, r.effects ++ [.wrote true], r.state⟩
  else ⟨false, r.effects ++ [.wrote false],
    scheduleStreamReconnect (streamDisconnect r.state) call.alert.timestampNs⟩

def streamSendAlert (cfg : StreamConfig) (s : StreamState) (call : StreamCall) : StreamResult :=
  let r := streamConnectIfNeeded cfg s call
  let len := (streamPayload cfg call.alert).length
  if ¬ r.ok then r
  else if len = 0 ∨ len ≥ streamPayloadSize then { r with ok := false }
  else if cfg.mode = .helper ∧ ¬ r.state.helperOpen then { r with ok := false }
  else streamWrite r call

/-- A run of the stream: its state, and all it did with the times of the alerts. -/
structure StreamRun where
  state : StreamState
  history : List (U64 × StreamEffect)

def streamStep (cfg : StreamConfig) (r : StreamRun) (call : StreamCall) : StreamRun :=
  let sent := streamSendAlert cfg r.state call
  ⟨sent.state, r.history ++ sent.effects.map (call.alert.timestampNs, ·)⟩

/-! The failures of a history. -/

def StreamEffect.failed : StreamEffect → Bool
  | .attempted ok => !ok
  | .wrote ok => !ok

/-- The times of the failed attempts and writes since the last connection, or since the beginning;
    the last one first. -/
def failuresSince (history : List (U64 × StreamEffect)) : List U64 :=
  ((history.reverse.takeWhile (·.2 ≠ .attempted true)).filter (·.2.failed)).map (·.1)

theorem failuresSince_connected (history : List (U64 × StreamEffect)) (t : U64) :
    failuresSince (history ++ [(t, .attempted true)]) = [] := by
  simp [failuresSince]

theorem failuresSince_failed (history : List (U64 × StreamEffect)) (t : U64) {e : StreamEffect}
    (he : e.failed = true) : failuresSince (history ++ [(t, e)]) = t :: failuresSince history := by
  have hne : e ≠ .attempted true := by
    rintro rfl
    cases he
  simp [failuresSince, hne, he]

theorem failuresSince_wrote (history : List (U64 × StreamEffect)) (t : U64) :
    failuresSince (history ++ [(t, .wrote true)]) = failuresSince history := by
  simp [failuresSince, StreamEffect.failed]

/-! The wait against the failures. -/

/-- The wait after `k + 1` failures, in nanoseconds. -/
def backoffAfter (k : Nat) : Nat := min (2 ^ k) 30 * 1000000000

/-- The time of the next attempt; 0 for any. -/
def dueAfter : List U64 → Nat
  | [] => 0
  | t :: earlier => t.toNat + backoffAfter earlier.length

/-- The two words say how many failures there were, and when the last of them was. -/
structure BackoffInv (s : StreamState) (failures : List U64) : Prop where
  backoff : s.backoffNs.toNat = backoffAfter failures.length
  next : s.nextReconnectNs.toNat = dueAfter failures

theorem backoffAfter_le (k : Nat) : backoffAfter k ≤ 30000000000 := Nat.mul_le_mul_right _ (Nat.min_le_right _ _)

theorem backoffAfter_pos (k : Nat) : 0 < backoffAfter k := by
  have hpow : 0 < 2 ^ k := Nat.two_pow_pos k
  unfold backoffAfter
  omega

/-- Doubled below half the maximum, and the maximum from there on. -/
theorem backoffAfter_succ (k : Nat) :
    backoffAfter (k + 1) = if backoffAfter k < 15000000000 then backoffAfter k * 2 else 30000000000 := by
  have hbig : 4 ≤ k → 2 ^ 4 ≤ 2 ^ k := Nat.pow_le_pow_right (by decide)
  have hsmall : k < 4 → 2 ^ k ≤ 2 ^ 3 := fun hk => Nat.pow_le_pow_right (by decide) (by omega)
  unfold backoffAfter
  rw [Nat.pow_succ]
  by_cases hk : k < 4
  · have := hsmall hk
    rw [if_pos (by omega)]
    omega
  · have := hbig (by omega)
    rw [if_neg (by omega)]
    omega

namespace BackoffInv
variable {s : StreamState} {failures : List U64}

theorem of_reset (s : StreamState) : BackoffInv (resetBackoff s) [] := ⟨rfl, rfl⟩

theorem disconnect (h : BackoffInv s failures) : BackoffInv (streamDisconnect s) failures := ⟨h.backoff, h.next⟩

/-- A failure moves both words on; a time below `2 ^ 63` leaves room for the wait. -/
theorem failed (h : BackoffInv s failures) {t : U64} (ht : t.toNat < 2 ^ 63) :
    BackoffInv (scheduleStreamReconnect s t) (t :: failures) := by
  have hle := backoffAfter_le failures.length
  have hback := h.backoff
  constructor
  · have hhalf : s.backoffNs < streamReconnectMaxNs / 2 ↔ backoffAfter failures.length < 15000000000 := by
      rw [BitVec.lt_def, hback]
      exact Iff.rfl
    rw [List.length_cons, backoffAfter_succ, scheduleStreamReconnect]
    dsimp only
    by_cases hlt : backoffAfter failures.length < 15000000000
    · rw [if_pos (hhalf.mpr hlt), if_pos hlt, BitVec.toNat_mul, hback]
      exact Nat.mod_eq_of_lt (by simp; omega)
    · rw [if_neg (mt hhalf.mp hlt), if_neg hlt]
      rfl
  · rw [scheduleStreamReconnect]
    dsimp only
    rw [BitVec.toNat_add, hback]
    exact Nat.mod_eq_of_lt (by omega)

/-- The gate of `stream_connect_if_needed`. -/
theorem held_iff (h : BackoffInv s failures) (t : U64) :
    ¬ (s.nextReconnectNs ≠ 0 ∧ t < s.nextReconnectNs) ↔
      failures = [] ∨ (failures.headD 0).toNat + backoffAfter (failures.length - 1) ≤ t.toNat := by
  have hnext := h.next
  have hzero : (0 : U64).toNat = 0 := rfl
  rw [BitVec.lt_def, Ne, ← BitVec.toNat_inj, hzero]
  cases failures with
  | nil => simp [hnext, dueAfter]
  | cons t₀ earlier =>
    have hpos := backoffAfter_pos earlier.length
    rw [dueAfter] at hnext
    simp only [List.headD_cons, List.length_cons, Nat.add_sub_cancel, reduceCtorEq, false_or]
    omega

end BackoffInv

/-! One call. -/

/-- `stream_connect_if_needed` does nothing, fails or connects. -/
theorem streamConnectIfNeeded_cases (cfg : StreamConfig) (s : StreamState) (call : StreamCall) :
    let r := streamConnectIfNeeded cfg s call
    (r.effects = [] ∧ r.state = s) ∨
      (r.effects = [.attempted false] ∧ r.state = scheduleStreamReconnect s call.alert.timestampNs) ∨
      r.effects = [.attempted true] ∧ ∃ s', r.state = resetBackoff s' := by
  dsimp only
  generalize hr : streamConnectIfNeeded cfg s call = r
  unfold streamConnectIfNeeded at hr
  dsimp only at hr
  repeat' split at hr
  all_goals subst hr
  all_goals simp

/-- Behind it, `stream_send_alert` writes nothing, or writes and keeps or loses the connection. -/
theorem streamSendAlert_cases (cfg : StreamConfig) (s : StreamState) (call : StreamCall) :
    let r := streamConnectIfNeeded cfg s call
    let sent := streamSendAlert cfg s call
    (sent.effects = r.effects ∧ sent.state = r.state) ∨
      (sent.effects = r.effects ++ [.wrote true] ∧ sent.state = r.state) ∨
      sent.effects = r.effects ++ [.wrote false] ∧
        sent.state = scheduleStreamReconnect (streamDisconnect r.state) call.alert.timestampNs := by
  unfold streamSendAlert streamWrite
  dsimp only
  repeat' split
  all_goals simp

/-- An attempt is made if there is no connection and nothing holds it back. -/
theorem attempts_iff (cfg : StreamConfig) (s : StreamState) (call : StreamCall) (henabled : cfg.enabled = true)
    (hdown : s.connected cfg.mode = false) :
    (∃ ok, .attempted ok ∈ (streamSendAlert cfg s call).effects) ↔
      ¬ (s.nextReconnectNs ≠ 0 ∧ call.alert.timestampNs < s.nextReconnectNs) := by
  have hconnect : (∃ ok, .attempted ok ∈ (streamSendAlert cfg s call).effects) ↔
      ∃ ok, .attempted ok ∈ (streamConnectIfNeeded cfg s call).effects := by
    rcases streamSendAlert_cases cfg s call with ⟨heffects, -⟩ | ⟨heffects, -⟩ | ⟨heffects, -⟩
    all_goals simp [heffects]
  rw [hconnect, streamConnectIfNeeded, if_neg (not_not_intro henabled), hdown, if_neg Bool.false_ne_true]
  by_cases hheld : s.nextReconnectNs ≠ 0 ∧ call.alert.timestampNs < s.nextReconnectNs
  · rw [if_pos hheld]
    exact iff_of_false (by simp) (not_not_intro hheld)
  · rw [if_neg hheld]
    refine iff_of_true ?_ hheld
    repeat' split
    all_goals simp

section
variable {cfg : StreamConfig} {r : StreamRun}

/-- **The step.** -/
theorem streamStep_inv (h : BackoffInv r.state (failuresSince r.history)) {call : StreamCall}
    (ht : call.alert.timestampNs.toNat < 2 ^ 63) :
    BackoffInv (streamStep cfg r call).state (failuresSince (streamStep cfg r call).history) := by
  have hconnect : BackoffInv (streamConnectIfNeeded cfg r.state call).state (failuresSince (r.history ++
      (streamConnectIfNeeded cfg r.state call).effects.map (call.alert.timestampNs, ·))) := by
    rcases streamConnectIfNeeded_cases cfg r.state call with ⟨heffects, hstate⟩ | ⟨heffects, hstate⟩ |
      ⟨heffects, s', hstate⟩
    · rw [heffects, hstate, List.map_nil, List.append_nil]
      exact h
    · rw [heffects, hstate, List.map_singleton, failuresSince_failed _ _ rfl]
      exact h.failed ht
    · rw [heffects, hstate, List.map_singleton, failuresSince_connected]
      exact .of_reset s'
  unfold streamStep
  dsimp only
  rcases streamSendAlert_cases cfg r.state call with ⟨heffects, hstate⟩ | ⟨heffects, hstate⟩ | ⟨heffects, hstate⟩
  · rw [heffects, hstate]
    exact hconnect
  · rw [heffects, hstate, List.map_append, List.map_singleton, ← List.append_assoc, failuresSince_wrote]
    exact hconnect
  · rw [heffects, hstate, List.map_append, List.map_singleton, ← List.append_assoc, failuresSince_failed _ _ rfl]
    exact hconnect.disconnect.failed ht

/-- **The run.** -/
theorem run_backoff (h : BackoffInv r.state (failuresSince r.history)) {calls : List StreamCall}
    (ht : ∀ call ∈ calls, call.alert.timestampNs.toNat < 2 ^ 63) :
    BackoffInv (run (streamStep cfg) r calls).state (failuresSince (run (streamStep cfg) r calls).history) := by
  have halong : Along (streamStep cfg) (fun _ call => call.alert.timestampNs.toNat < 2 ^ 63) r calls := by
    apply Along.of_splits
    intro pre call post hsplit
    exact ht call (by simp [hsplit])
  exact halong.inv (I := fun r => BackoffInv r.state (failuresSince r.history))
    (fun _ _ hinv htime => streamStep_inv hinv htime) h

end

/-- **The reconnect backoff.** After any calls of `stream_send_alert` since `bridge_init`, with times
    below `2 ^ 63`: while there is no connection, an alert makes an attempt if and only if nothing has
    failed since the last connection, or it is `min (2 ^ (k - 1)) 30` seconds past the last of the
    `k` failures. -/
theorem stream_backoff (getenv : CStr → Option CStr) (henabled : (parseStreamConfig getenv).enabled = true)
    (calls : List StreamCall) (ht : ∀ call ∈ calls, call.alert.timestampNs.toNat < 2 ^ 63) (r : StreamRun)
    (hr : r = run (streamStep (parseStreamConfig getenv)) ⟨streamInit, []⟩ calls)
    (hdown : r.state.connected (parseStreamConfig getenv).mode = false) (call : StreamCall) :
    (∃ ok, .attempted ok ∈ (streamSendAlert (parseStreamConfig getenv) r.state call).effects) ↔
      (failuresSince r.history).length = 0 ∨
        ((failuresSince r.history).headD 0).toNat +
          min (2 ^ ((failuresSince r.history).length - 1)) 30 * 1000000000 ≤ call.alert.timestampNs.toNat := by
  have hinv : BackoffInv r.state (failuresSince r.history) := by
    rw [hr]
    exact run_backoff ⟨rfl, rfl⟩ ht
  rw [attempts_iff _ _ call henabled hdown, hinv.held_iff, List.length_eq_zero_iff]
  exact Iff.rfl

/-- The stream is switched on, and goes to the default target. -/
def streamOn (key : CStr) : Option CStr := if key = ascii "VMI_ALERT_STREAM_ENABLE" then some (ascii "1") else none

/-- An alert at a time, in seconds, that finds the target refusing. -/
def refusedAt (seconds : Nat) : StreamCall :=
  ⟨newAlert 7 .suspicious none (BitVec.ofNat 64 (seconds * 1000000000)), true, true, false, true, true⟩

/-- Refused at 5 and at 6 seconds, the stream is tried again at 8. -/
theorem stream_backoff_two_refusals :
    failuresSince (run (streamStep (parseStreamConfig streamOn)) ⟨streamInit, []⟩ [refusedAt 5, refusedAt 6]).history =
        [6000000000, 5000000000] ∧
      ∃ ok, .attempted ok ∈ (streamSendAlert (parseStreamConfig streamOn)
        (run (streamStep (parseStreamConfig streamOn)) ⟨streamInit, []⟩ [refusedAt 5, refusedAt 6]).state
        (refusedAt 8)).effects := by
  have hfailures : failuresSince
      (run (streamStep (parseStreamConfig streamOn)) ⟨streamInit, []⟩ [refusedAt 5, refusedAt 6]).history =
        [6000000000, 5000000000] := by decide +kernel
  refine ⟨hfailures, (stream_backoff streamOn (by decide +kernel) [refusedAt 5, refusedAt 6] (by decide +kernel) _ rfl
    (by decide +kernel) (refusedAt 8)).mpr (Or.inr ?_)⟩
  rw [hfailures]
  decide +kernel

end SentinelStack.Vmi
