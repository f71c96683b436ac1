import SentinelStack.Lib.Printf
import SentinelStack.Vmi.BridgeEmission
import SentinelStack.Vmi.PrivilegeBaseline

/- The alert log of the build without libbpf: `write_alert_to_map` prints an alert
   into a line of `/tmp/vmi_alerts.log`, its reason as it stands.

   The reason is at most 63 bytes, so the line fits its buffer (`text_fits`). What
   it cannot hold is a line break: the stream escapes one, this log does not. Main
   result: `fallback_log_iff` — every alert is one line, and alerts of other pids
   or levels leave another log, if and only if the alerts are written and no reason
   has a newline in it. A reason of the task walker has one where the guest's `comm`
   has (`walker_line_break_iff`). -/
namespace SentinelStack.Vmi
open SentinelStack.Lib

/-- The reason and its NUL are in `char reason[VMI_ALERT_REASON_MAX]`. -/
def VmiAlert.Fits (a : VmiAlert) : Prop := a.reason.length < vmiAlertReasonMax

/-- `ALERT pid=%u threat=%u ts=%lu reason=%s`. -/
def VmiAlert.text (a : VmiAlert) : CStr :=
  ascii "ALERT pid=" ++ fmtDec a.pid.toNat ++ ascii " threat=" ++ fmtDec a.threatLevel.value ++
    ascii " ts=" ++ fmtDec a.timestampNs.toNat ++ ascii " reason=" ++ a.reason

/-- `sizeof(line)` in `write_alert_to_map`. -/
def fallbackLineSize : Nat := 256

/-- `VMI_ALERT_FALLBACK_PATH`: whether `open_bpf_map` could open it, and what is in it. -/
structure FallbackLog where
  isOpen : Bool
  content : List U8
  deriving DecidableEq, Repr

namespace FallbackLog

/-- `write_alert_to_map` of the build without libbpf, and whether `write` takes the line. `none` when
    the line is longer than its buffer, and `write` is given bytes behind it. -/
def writeAlertToMap (log : FallbackLog) (alert : VmiAlert) (written : Bool) : Option (Int × FallbackLog) :=
  if ¬ log.isOpen then some (-1, log)
  else if (alert.text ++ [newline]).length ≥ fallbackLineSize then none
  else if written then some (0, { log with content := log.content ++ (alert.text ++ [newline]) })
  else some (-1, log)

/-- The log after some alerts, each with the outcome of its `write`. -/
def writeAlerts (log : FallbackLog) : List (VmiAlert × Bool) → Option FallbackLog
  | [] => some log
  | (alert, written) :: rest => (log.writeAlertToMap alert written).bind fun r => r.2.writeAlerts rest

end FallbackLog

/-- One text goes over into the other by a line at its end. -/
def AppendsOneLine (old new : List U8) : Prop := ∃ line, newline ∉ line ∧ new = old ++ (line ++ [newline])

theorem appendsOneLine_iff (old line : List U8) : AppendsOneLine old (old ++ (line ++ [newline])) ↔ newline ∉ line := by
  constructor
  · rintro ⟨other, hother, heq⟩
    rwa [List.append_cancel_right (List.append_cancel_left heq)]
  · intro hline
    exact ⟨line, hline, rfl⟩

/-! The line of an alert. -/

/-- `strncpy` cuts a longer reason. -/
theorem newAlert_fits (pid : U32) (level : ThreatLevel) (reason : Option CStr) (stampNs : U64) :
    (newAlert pid level reason stampNs).Fits := by
  rw [VmiAlert.Fits, newAlert, strncpyz, List.length_take]
  exact Nat.lt_of_le_of_lt (Nat.min_le_left _ _) (by decide)

theorem newline_not_mem_fmtDec (n : Nat) : newline ∉ fmtDec n := by
  intro h
  exact absurd (isDecDigit_of_mem_fmtDec n newline h) (by decide)

/-- Only the reason can break the line. -/
theorem newline_mem_text (a : VmiAlert) : newline ∈ a.text ↔ newline ∈ a.reason := by
  have hpid : newline ∉ ascii "ALERT pid=" := by decide +kernel
  have hthreat : newline ∉ ascii " threat=" := by decide +kernel
  have hts : newline ∉ ascii " ts=" := by decide +kernel
  have hreason : newline ∉ ascii " reason=" := by decide +kernel
  simp only [VmiAlert.text, List.mem_append, hpid, hthreat, hts, hreason, newline_not_mem_fmtDec, false_or]

/-- The line has room in its buffer, whatever it says. -/
theorem text_fits {a : VmiAlert} (h : a.Fits) : (a.text ++ [newline]).length < fallbackLineSize := by
  have hpid := length_fmtDec_u32 a.pid
  have hthreat : (fmtDec a.threatLevel.value).length ≤ 1 :=
    length_fmtDec_le (by decide) (by cases a.threatLevel <;> decide)
  have hts := length_fmtDec_u64 a.timestampNs
  have hwords : (ascii "ALERT pid=").length = 10 ∧ (ascii " threat=").length = 8 ∧ (ascii " ts=").length = 4 ∧
      (ascii " reason=").length = 8 := by decide +kernel
  obtain ⟨hw₁, hw₂, hw₃, hw₄⟩ := hwords
  unfold VmiAlert.Fits vmiAlertReasonMax at h
  simp only [VmiAlert.text, List.length_append, List.length_singleton, fallbackLineSize]
  omega

/-- A line tells the pid and the level. -/
theorem write_eq_of_text {a b : VmiAlert} (h : a.text = b.text) : a.write = b.write := by
  have hthreat : ∀ rest : CStr, Stops isDecDigit (ascii " threat=" ++ rest) := by
    intro rest c hc
    rw [← Option.mem_some.mp hc]
    decide
  have hts : ∀ rest : CStr, Stops isDecDigit (ascii " ts=" ++ rest) := by
    intro rest c hc
    rw [← Option.mem_some.mp hc]
    decide
  simp only [VmiAlert.text, List.append_assoc] at h
  obtain ⟨hpid, h⟩ := fmtDec_append_inj (hthreat _) (hthreat _) (List.append_cancel_left h)
  obtain ⟨hvalue, -⟩ := fmtDec_append_inj (hts _) (hts _) (List.append_cancel_left h)
  have hlevel : a.threatLevel = b.threatLevel := by
    revert hvalue
    cases a.threatLevel <;> cases b.threatLevel <;> decide
  rw [VmiAlert.write, VmiAlert.write, BitVec.eq_of_toNat_eq hpid, hlevel]

/-! The log. -/

theorem writeAlertToMap_written {log : FallbackLog} (hopen : log.isOpen = true) {a : VmiAlert} (h : a.Fits) :
    log.writeAlertToMap a true = some (0, { log with content := log.content ++ (a.text ++ [newline]) }) := by
  rw [FallbackLog.writeAlertToMap, if_neg (not_not_intro hopen), if_neg (Nat.not_le.mpr (text_fits h)), if_pos rfl]

/-- **One alert** is one line if it is written and its reason has no line break. -/
theorem appends_line_iff (log : FallbackLog) {a : VmiAlert} (h : a.Fits) (written : Bool) :
    (∃ log', log.writeAlertToMap a written = some (0, log') ∧ AppendsOneLine log.content log'.content) ↔
      log.isOpen = true ∧ written = true ∧ newline ∉ a.reason := by
  constructor
  · rintro ⟨log', hwrite, happends⟩
    have hreturns : log.isOpen = true ∧ written = true := by
      unfold FallbackLog.writeAlertToMap at hwrite
      repeat' split at hwrite
      all_goals simp_all
    obtain ⟨hopen, rfl⟩ := hreturns
    rw [writeAlertToMap_written hopen h] at hwrite
    rw [← (Prod.mk.inj (Option.some.inj hwrite)).2] at happends
    refine ⟨hopen, rfl, ?_⟩
    rw [← newline_mem_text]
    exact (appendsOneLine_iff _ _).mp happends
  · rintro ⟨hopen, rfl, hnl⟩
    refine ⟨_, writeAlertToMap_written hopen h, (appendsOneLine_iff _ _).mpr ?_⟩
    rw [newline_mem_text]
    exact hnl

/-- The log grows by the lines of the alerts. -/
theorem writeAlerts_content {log : FallbackLog} {as : List (VmiAlert × Bool)}
    (has : ∀ a ∈ as, a.1.Fits ∧ log.isOpen = true ∧ a.2 = true) :
    log.writeAlerts as =
      some { log with content := log.content ++ (as.map (·.1.text)).flatMap (· ++ [newline]) } := by
  induction as generalizing log with
  | nil => simp [FallbackLog.writeAlerts]
  | cons a as ih =>
    obtain ⟨alert, written⟩ := a
    rw [List.forall_mem_cons] at has
    obtain ⟨⟨hfits, hopen, rfl⟩, hrest⟩ := has
    rw [FallbackLog.writeAlerts, writeAlertToMap_written hopen hfits, Option.bind_some]
    refine (ih ?_).trans ?_
    · exact hrest
    · simp only [List.map_cons, List.flatMap_cons, List.append_assoc]

/-- Without a line break, logs that agree tell the same pids and levels. -/
theorem writes_eq_of_log {log : FallbackLog} {as bs : List (VmiAlert × Bool)}
    (has : ∀ a ∈ as ++ bs, a.1.Fits ∧ log.isOpen = true ∧ a.2 = true) (hnl : ∀ a ∈ as ++ bs, newline ∉ a.1.reason)
    (h : log.writeAlerts as = log.writeAlerts bs) : as.map (·.1.write) = bs.map (·.1.write) := by
  rw [writeAlerts_content fun a ha => has a (List.mem_append_left bs ha),
    writeAlerts_content fun b hb => has b (List.mem_append_right as hb), Option.some.injEq, FallbackLog.mk.injEq] at h
  have hlines : ∀ cs ⊆ as ++ bs, ∀ l ∈ cs.map (·.1.text), newline ∉ l := by
    intro cs hcs l hl
    obtain ⟨c, hc, rfl⟩ := List.mem_map.mp hl
    rw [newline_mem_text]
    exact hnl c (hcs hc)
  have htexts : as.map (·.1.text) = bs.map (·.1.text) :=
    unlines_injective (hlines as (List.subset_append_left as bs)) (hlines bs (List.subset_append_right as bs))
      (List.append_cancel_left h.2)
  -- the pid and the level are read off the text
  have hfactors : Function.FactorsThrough (fun a : VmiAlert × Bool => a.1.write) fun a => a.1.text :=
    fun a b => write_eq_of_text
  rw [← hfactors.extend_comp fun _ => (0, .clean), ← List.map_map, ← List.map_map, htexts]

/-- **The fallback log tells its alerts, exactly without line breaks.** For two sequences of alerts,
    with any outcomes of the writes: every alert of them is one line, and they leave different
    logs when a pid or a level differs, if and only if the log is open, the writes succeed and
    no reason has a newline in it. -/
theorem fallback_log_iff (log : FallbackLog) (as bs : List (VmiAlert × Bool)) (hfits : ∀ a ∈ as ++ bs, a.1.Fits) :
    ((∀ a ∈ as ++ bs, ∃ log', log.writeAlertToMap a.1 a.2 = some (0, log') ∧
        AppendsOneLine log.content log'.content) ∧
      (as.map (·.1.write) ≠ bs.map (·.1.write) → log.writeAlerts as ≠ log.writeAlerts bs)) ↔
      ∀ a ∈ as ++ bs, log.isOpen = true ∧ a.2 = true ∧ newline ∉ a.1.reason := by
  constructor
  · intro h a ha
    exact (appends_line_iff log (hfits a ha) a.2).mp (h.1 a ha)
  · intro h
    refine ⟨?_, ?_⟩
    · intro a ha
      exact (appends_line_iff log (hfits a ha) a.2).mpr (h a ha)
    · intro hdiffer hsame
      refine hdiffer (writes_eq_of_log ?_ ?_ hsame)
      · exact fun a ha => ⟨hfits a ha, (h a ha).1, (h a ha).2.1⟩
      · exact fun a ha => (h a ha).2.2

theorem fallback_log_plain :
    FallbackLog.writeAlerts ⟨true, []⟩ [(newAlert 7 .suspicious (some (ascii "probe")) 5, true)] ≠
      FallbackLog.writeAlerts ⟨true, []⟩ [(newAlert 7 .malicious (some (ascii "probe")) 5, true)] := by
  have hplain : newline ∉ strncpyz vmiAlertReasonMax (ascii "probe") := by decide +kernel
  refine ((fallback_log_iff ⟨true, []⟩ [(newAlert 7 .suspicious (some (ascii "probe")) 5, true)]
    [(newAlert 7 .malicious (some (ascii "probe")) 5, true)] ?_).mpr ?_).2 (by decide)
  · exact List.forall_mem_cons.mpr ⟨newAlert_fits .., List.forall_mem_singleton.mpr (newAlert_fits ..)⟩
  · exact List.forall_mem_cons.mpr ⟨⟨rfl, rfl, hplain⟩, List.forall_mem_singleton.mpr ⟨rfl, rfl, hplain⟩⟩

/-! Where the reasons come from. -/

theorem signalAlert_fits {t : PolicyTable} {requested : ThreatLevel} {pid : U32} {reason : Option CStr}
    {nowNs stampNs : U64} {a : VmiAlert} (h : signalAlert t requested pid reason nowNs stampNs = some a) : a.Fits := by
  simp only [signalAlert, Option.ite_none_left_eq_some, Option.some.injEq] at h
  rw [← h.2]
  exact newAlert_fits ..

theorem unsuppressed_fits (t : PolicyTable) (ops : List BridgeOp) : ∀ a ∈ unsuppressed t ops, a.Fits := by
  induction ops generalizing t with
  | nil => simp [unsuppressed]
  | cons op ops ih =>
    intro a ha
    rw [unsuppressed, List.mem_append, Option.mem_toList] at ha
    rcases ha with hop | hrest
    · cases op with
      | flushAlerts => cases hop
      | signalMalicious pid reason nowNs stampNs =>
        rw [unsuppressedAlert] at hop
        exact signalAlert_fits hop
      | signalSuspicious pid reason nowNs stampNs =>
        rw [unsuppressedAlert] at hop
        exact signalAlert_fits hop
    · exact ih _ a hrest

/-- Every alert that a run of the bridge writes fits, whatever reasons it was given. -/
theorem emitted_fits (env : MapEnv) (vmiAlertMap : U32 → Option ThreatLevel) (ops : List BridgeOp) :
    ∀ a ∈ emitted (bridgeRun env vmiAlertMap ops), a.Fits := by
  intro a ha
  have hcustody : a ∈ custody (bridgeRun env vmiAlertMap ops) := List.mem_append_left _ ha
  have hunsuppressed := (run_custody env (bridgeInit vmiAlertMap) ops).mem_iff.mp hcustody
  exact unsuppressed_fits _ ops a (by simpa [custody, emitted, bridgeInit, AlertQueue.empty, pending] using hunsuppressed)

/-- A reason of the task walker breaks the line where the name of the process does: neither of its
    buffers cuts the name. -/
theorem walker_line_break_iff (kind : CStr) (hkind : kind.length ≤ 15) (hline : newline ∉ kind) (proc : VmiProcess)
    (hcomm : (cstrOf proc.comm).length < taskCommLen) (level : ThreatLevel) (stampNs : U64) :
    newline ∈ (newAlert proc.pid level (some (signalFor kind proc).reason) stampNs).reason ↔
      newline ∈ cstrOf proc.comm := by
  have hwords : (ascii " pid=").length = 5 ∧ (ascii " comm=").length = 6 ∧ newline ∉ ascii " pid=" ∧
      newline ∉ ascii " comm=" := by decide +kernel
  obtain ⟨hpidLen, hcommLen, hpidLine, hcommLine⟩ := hwords
  have hpid := length_fmtDec_u32 proc.pid
  unfold taskCommLen at hcomm
  have hreason : (newAlert proc.pid level (some (signalFor kind proc).reason) stampNs).reason =
      kind ++ ascii " pid=" ++ fmtDec proc.pid.toNat ++ ascii " comm=" ++ cstrOf proc.comm := by
    rw [newAlert, signalFor, Option.getD_some, strncpyz, List.take_take, List.take_of_length_le]
    simp only [List.length_append, vmiAlertReasonMax]
    omega
  simp only [hreason, List.mem_append, hline, hpidLine, hcommLine, newline_not_mem_fmtDec, false_or]

/-- A process that the guest has named `a`, line break, `b`. -/
def brokenName : VmiProcess := { shellAs 0 with comm := [0x61, 0x0A, 0x62] ++ List.replicate 13 0 }

def brokenAlert : VmiAlert := newAlert 7 .suspicious (some (signalFor (ascii "priv_escalation") brokenName).reason) 5

/-- A reason that goes on with the line of another alert. -/
def forgedReason : CStr := ascii "x" ++ [newline] ++ ascii "ALERT pid=8 threat=2 ts=9 reason=y"

/-- The alert of such a process is more than one line; and one alert can leave the log of two. -/
theorem line_break_logged :
    (∃ log', FallbackLog.writeAlertToMap ⟨true, []⟩ brokenAlert true = some (0, log') ∧
        ¬ AppendsOneLine [] log'.content) ∧
      FallbackLog.writeAlerts ⟨true, []⟩ [(newAlert 7 .suspicious (some forgedReason) 5, true)] =
        FallbackLog.writeAlerts ⟨true, []⟩
          [(newAlert 7 .suspicious (some (ascii "x")) 5, true), (newAlert 8 .malicious (some (ascii "y")) 9, true)] := by
  refine ⟨⟨_, writeAlertToMap_written rfl (newAlert_fits ..), ?_⟩, by decide +kernel⟩
  intro h
  have hline : newline ∉ brokenAlert.text := (appendsOneLine_iff [] _).mp h
  exact absurd hline (by decide +kernel)

end SentinelStack.Vmi
