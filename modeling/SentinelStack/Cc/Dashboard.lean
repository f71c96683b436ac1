import SentinelStack.Cc.AuditJson
import SentinelStack.Cc.ForkTrack
import SentinelStack.Cc.Hooks
import SentinelStack.Lib.Ring
import SentinelStack.Lib.Tally

/- The dashboard (`sentinel_tui.c`) at the end of the audit stream.

   A program in the kernel emits an event, the loader prints it as a line of JSON,
   and `sentinel-tui` reads its standard input line by line, parses what looks like
   an object and counts it.

   - `dashboard_exact` — after any output of the loader, whatever lines that look like
     no object it prints in between, the counters, the table by syscall and the list of recent events are
     those of the records printed.
   - `blocked_is_denied` — over any runs of the programs and any turns of the loop
     that reads the ring buffer, the total that the dashboard shows as blocked is
     the number of runs that called `deny_action`, if and only if the buffer had
     room for each record and none of these was left in it. The loop looks for the
     end of the child before it polls, so what came in since the last poll is left. -/
namespace SentinelStack.Cc
open SentinelStack.Lib

/-! The state of `sentinel-tui`. -/

structure SyscallStats where
  nr : U32
  allowCount : U64
  blockCount : U64
  fexitCount : U64
  deriving DecidableEq, Repr

/-- The global counters. -/
structure Totals where
  allow : U64
  block : U64
  cfiOk : U64
  cfiFail : U64
  nrMismatch : U64
  fork : U64
  fexit : U64
  permissive : U64
  learn : U64
  libDeny : U64
  shadowOk : U64
  shadowFail : U64
  fallback : U64
  kobjDeny : U64
  events : U64
  deriving DecidableEq, Repr

/-- `MAX_HISTORY`. -/
def maxHistory : Nat := 256

/-- `MAX_SYSCALLS`. -/
def maxSyscalls : Nat := 512

structure Dashboard where
  totals : Totals
  sysStats : List SyscallStats
  history : Ring TuiEvent maxHistory

def Dashboard.initial : Dashboard where
  totals := ⟨0, 0, 0, 0, 0, 0, 0, 0, 0, 0, 0, 0, 0, 0, 0⟩
  sysStats := []
  history := .empty ⟨[], 0, 0, 0, 0, [], [], 0, [], false⟩

/-! Counting an event. -/

/-- The column of the table that an event is counted in. -/
inductive StatColumn
  | allow
  | block
  | fexit
  deriving DecidableEq, Repr

def SyscallStats.bump (s : SyscallStats) : StatColumn → SyscallStats
  | .allow => { s with allowCount := s.allowCount + 1 }
  | .block => { s with blockCount := s.blockCount + 1 }
  | .fexit => { s with fexitCount := s.fexitCount + 1 }

/-- The rows of `sys_stats`: found by number, or created while there is room (`get_stats`). -/
def statOps : TallyOps U32 SyscallStats (U32 × StatColumn) where
  eventKey := Prod.fst
  rowKey := SyscallStats.nr
  fresh nr := ⟨nr, 0, 0, 0⟩
  enter s e := s.bump e.2
  rowKey_fresh _ := rfl
  rowKey_enter s e := by cases e.2 <;> rfl

def countStat (rows : List SyscallStats) (nr : U32) (column : StatColumn) : List SyscallStats :=
  statOps.enterInto maxSyscalls rows (nr, column)

/-- The comparisons of `update_stats`, in their order. -/
def countEvent (t : Totals) (rows : List SyscallStats) (evt : TuiEvent) : Totals × List SyscallStats :=
  if evt.action = ascii "ALLOW" ∨ evt.action = ascii "ALLOW+CFI" then
    (if evt.action = ascii "ALLOW+CFI" then { t with allow := t.allow + 1, cfiOk := t.cfiOk + 1 }
      else { t with allow := t.allow + 1 }, countStat rows evt.syscallNr .allow)
  else if evt.action = ascii "BLOCK" then ({ t with block := t.block + 1 }, countStat rows evt.syscallNr .block)
  else if evt.action = ascii "CFI-FAIL" then ({ t with cfiFail := t.cfiFail + 1, block := t.block + 1 }, rows)
  else if evt.action = ascii "NR-MISMATCH" then
    ({ t with nrMismatch := t.nrMismatch + 1, block := t.block + 1 }, rows)
  else if evt.action = ascii "FORK-TRACK" then ({ t with fork := t.fork + 1 }, rows)
  else if evt.action = ascii "FEXIT" then ({ t with fexit := t.fexit + 1 }, countStat rows evt.syscallNr .fexit)
  else if evt.action = ascii "PERMISSIVE" then
    ({ t with permissive := t.permissive + 1, block := t.block + 1 }, rows)
  else if evt.action = ascii "DLOPEN-EXT" then (t, rows)
  else if evt.action = ascii "LEARN" then ({ t with learn := t.learn + 1 }, rows)
  else if evt.action = ascii "LIB-DENY" then ({ t with libDeny := t.libDeny + 1, block := t.block + 1 }, rows)
  else if evt.action = ascii "SHADOW-OK" then ({ t with shadowOk := t.shadowOk + 1 }, rows)
  else if evt.action = ascii "SHADOW-FAIL" then
    ({ t with shadowFail := t.shadowFail + 1, block := t.block + 1 }, rows)
  else if evt.action = ascii "FALLBACK" then ({ t with fallback := t.fallback + 1, block := t.block + 1 }, rows)
  else if evt.action = ascii "KOBJ-DENY" then ({ t with kobjDeny := t.kobjDeny + 1, block := t.block + 1 }, rows)
  else (t, rows)

def updateStats (d : Dashboard) (evt : TuiEvent) : Dashboard where
  totals := (countEvent { d.totals with events := d.totals.events + 1 } d.sysStats evt).1
  sysStats := (countEvent { d.totals with events := d.totals.events + 1 } d.sysStats evt).2
  history := d.history.push evt

/-! Reading the input. -/

def isBlank (c : U8) : Bool := c = 0x20 ∨ c = 0x09

/-- One turn of the loop of `main`: a line that does not begin with a brace is skipped. -/
def tuiLine (d : Dashboard) (line : CStr) : Dashboard :=
  let p := line.dropWhile isBlank
  if p.head? ≠ some openBrace then d
  else
    match parseEvent p with
    | none => d
    | some evt => updateStats d evt

/-- `main` on its whole standard input. -/
def tuiMain (input : List U8) : Dashboard := (fgetsLines 4096 input).foldl tuiLine .initial

/-- Row `i` of the recent events, as `render` reads it. -/
def Dashboard.recentEvent (d : Dashboard) (i : Nat) : TuiEvent := d.history.recent i

/-! One record. -/

/-- The actions that the total of blocked syscalls counts. -/
def blockedActions : List AuditAction :=
  [.block, .cfiFail, .nrMismatch, .permissive, .libDeny, .shadowFail, .fallback, .kobjDeny]

/-- The counters, and the actions that each of them counts. -/
def counters : List ((Totals → U64) × List AuditAction) :=
  [(Totals.allow, [.allow, .cfiOk]), (Totals.block, blockedActions), (Totals.cfiOk, [.cfiOk]),
    (Totals.cfiFail, [.cfiFail]), (Totals.nrMismatch, [.nrMismatch]), (Totals.fork, [.forkTrack]),
    (Totals.fexit, [.fexitOk]), (Totals.permissive, [.permissive]), (Totals.learn, [.learn]),
    (Totals.libDeny, [.libDeny]), (Totals.shadowOk, [.shadowOk]), (Totals.shadowFail, [.shadowFail]),
    (Totals.fallback, [.fallback]), (Totals.kobjDeny, [.kobjDeny])]

def AuditAction.column : AuditAction → Option StatColumn
  | allow | cfiOk => some .allow
  | block => some .block
  | fexitOk => some .fexit
  | _ => none

section event

variable (t : Totals) (rows : List SyscallStats) {evt : TuiEvent} {code : U8} (h : evt.action = actionStr code)
include h

/-- Each counter counts its actions. -/
theorem countEvent_totals : ∀ c ∈ counters, c.1 (countEvent t rows evt).1 =
    if (AuditAction.ofCode code).any (· ∈ c.2) then c.1 t + 1 else c.1 t := by
  unfold countEvent
  rw [h, actionStr]
  cases AuditAction.ofCode code with
  | none =>
    iterate 14 refine List.forall_mem_cons.mpr ⟨rfl, ?_⟩
    exact List.forall_mem_nil _
  | some a =>
    cases a
    all_goals
      iterate 14 refine List.forall_mem_cons.mpr ⟨rfl, ?_⟩
      exact List.forall_mem_nil _

theorem countEvent_events : (countEvent t rows evt).1.events = t.events := by
  unfold countEvent
  rw [h, actionStr]
  cases AuditAction.ofCode code with
  | none => rfl
  | some a => cases a <;> rfl

/-- What an event adds to the table. -/
theorem countEvent_rows : (countEvent t rows evt).2 =
    match (AuditAction.ofCode code).bind AuditAction.column with
    | none => rows
    | some column => countStat rows evt.syscallNr column := by
  unfold countEvent
  rw [h, actionStr]
  cases AuditAction.ofCode code with
  | none => rfl
  | some a => cases a <;> rfl

end event

/-- The counters do not include the number of events. -/
theorem counters_events (t : Totals) (n : U64) : ∀ c ∈ counters, c.1 { t with events := n } = c.1 t := by
  iterate 14 refine List.forall_mem_cons.mpr ⟨rfl, ?_⟩
  exact List.forall_mem_nil _

/-! The loader's output. -/

theorem oneLine_actionStr (action : U8) : OneLine (actionStr action) := by
  unfold actionStr
  cases AuditAction.ofCode action with
  | none => exact oneLine_ascii (by decide)
  | some a => cases a <;> exact oneLine_ascii (by decide)

/-- A time whose text, as `strftime` leaves it, is on one line. -/
structure PrintedClock extends Clock where
  oneLine : OneLine tbuf

theorem oneLine_auditJson (r : AuditRecord) (ts : PrintedClock) : OneLine (auditJson r ts.toClock) := by
  unfold auditJson
  split
  · simp only [oneLine_append, oneLine_fmtDec, oneLine_fmtInt, oneLine_fmtDecPadded, oneLine_actionStr, ts.oneLine,
      and_true]
    repeat' apply And.intro
    all_goals exact oneLine_ascii (by decide)
  · simp only [oneLine_append, oneLine_fmtDec, oneLine_fmtHex, oneLine_fmtDecPadded, oneLine_actionStr, ts.oneLine,
      and_true]
    repeat' apply And.intro
    all_goals exact oneLine_ascii (by decide)

/-- A line of the loader: an audit record, or other text that `sentinel-tui` takes for no object. -/
inductive OutputLine
  | audit (r : AuditRecord) (ts : PrintedClock)
  | other (line : CStr) (oneLine : OneLine line) (fits : line.length < 4095)
      (noObject : (line.dropWhile isBlank).head? ≠ some openBrace)

namespace OutputLine

def record : OutputLine → Option AuditRecord
  | audit r _ => some r
  | other .. => none

/-- What is printed. -/
def text : OutputLine → CStr
  | audit r ts => (auditEventHandler r ts.toClock).getD []
  | other line .. => line ++ [newline]

/-- The line without the newline at its end. -/
def body : OutputLine → CStr
  | audit r ts => auditJson r ts.toClock
  | other line .. => line

/-- No record is too long to be printed. -/
theorem text_eq (l : OutputLine) : l.text = l.body ++ [newline] := by
  cases l with
  | audit r ts =>
    have hlen := length_auditJson_lt r ts.toClock
    show (auditEventHandler r ts.toClock).getD [] = _
    rw [auditEventHandler, if_neg (by omega)]
    rfl
  | other => rfl

theorem body_spec (l : OutputLine) : OneLine l.body ∧ l.body.length < 4095 := by
  cases l with
  | audit r ts =>
    have hlen := length_auditJson_lt r ts.toClock
    exact ⟨oneLine_auditJson r ts, show (auditJson r ts.toClock).length < 4095 by omega⟩
  | other line oneLine fits => exact ⟨oneLine, fits⟩

/-- `fgets` returns the lines one by one. -/
theorem fgetsLines_text (ls : List OutputLine) :
    fgetsLines 4096 (ls.flatMap text) = ls.map fun l => l.body ++ [newline] := by
  have htext : ls.flatMap text = (ls.map body).flatMap (· ++ [newline]) := by
    rw [List.flatMap_map]
    exact congrArg (ls.flatMap ·) (funext text_eq)
  rw [htext, fgetsLines_unlines, List.map_map]
  · rfl
  · intro line hline
    obtain ⟨l, -, rfl⟩ := List.mem_map.mp hline
    exact ⟨l.body_spec.1, Nat.succ_lt_succ l.body_spec.2⟩

end OutputLine

theorem dropWhile_isBlank_auditJson (r : AuditRecord) (ts : Clock) :
    (auditJson r ts ++ [newline]).dropWhile isBlank = auditJson r ts ++ [newline] := by
  rw [auditJson_eq]
  rfl

/-- A printed record is counted. -/
theorem tuiLine_audit (d : Dashboard) (r : AuditRecord) (ts : PrintedClock) :
    ∃ evt, Reports evt r ∧ tuiLine d ((OutputLine.audit r ts).body ++ [newline]) = updateStats d evt := by
  obtain ⟨evt, hparse, hreports⟩ := parseEvent_printed r ts.toClock
  refine ⟨evt, hreports, ?_⟩
  have hbrace : (auditJson r ts.toClock ++ [newline]).head? = some openBrace := by
    rw [auditJson_eq]
    rfl
  unfold tuiLine
  dsimp only [OutputLine.body]
  rw [dropWhile_isBlank_auditJson, if_neg (not_not_intro hbrace), hparse]

theorem tuiLine_other (d : Dashboard) {line : CStr} (h : (line.dropWhile isBlank).head? ≠ some openBrace) :
    tuiLine d (line ++ [newline]) = d := by
  unfold tuiLine
  rw [if_pos]
  intro hbrace
  rcases hdrop : line.dropWhile isBlank with _ | ⟨c, rest⟩
  · have hall : (line ++ [newline]).dropWhile isBlank = [newline] := by
      rw [List.dropWhile_append, hdrop]
      rfl
    rw [hall] at hbrace
    cases hbrace
  · rw [List.dropWhile_append, hdrop] at hbrace
    rw [hdrop] at h
    exact h hbrace

/-- The dashboard is what the events of the records make of it, one after the other. -/
theorem foldl_tuiLine (ls : List OutputLine) (d : Dashboard) :
    ∃ evts, List.Forall₂ Reports evts (ls.filterMap OutputLine.record) ∧
      (ls.map fun l => l.body ++ [newline]).foldl tuiLine d = evts.foldl updateStats d := by
  induction ls generalizing d with
  | nil => exact ⟨[], .nil, rfl⟩
  | cons l ls ih =>
    cases l with
    | audit r ts =>
      obtain ⟨evt, hreports, hline⟩ := tuiLine_audit d r ts
      obtain ⟨evts, hevts, hrest⟩ := ih (updateStats d evt)
      refine ⟨evt :: evts, .cons hreports hevts, ?_⟩
      rw [List.map_cons, List.foldl_cons, hline, hrest]
      rfl
    | other line oneLine fits noObject =>
      obtain ⟨evts, hevts, hrest⟩ := ih d
      refine ⟨evts, hevts, ?_⟩
      rw [List.map_cons, List.foldl_cons]
      exact (congrArg (fun d => List.foldl tuiLine d _) (tuiLine_other d noObject)).trans hrest

/-! The dashboard after a stream. -/

/-- A counter counts the record. -/
def AuditRecord.CountedIn (actions : List AuditAction) (r : AuditRecord) : Bool :=
  (AuditAction.ofCode r.action).any (· ∈ actions)

/-- The entry of the table that a record makes. -/
def AuditRecord.entry (r : AuditRecord) : Option (U32 × StatColumn) :=
  ((AuditAction.ofCode r.action).bind AuditAction.column).map fun column => (r.syscallNr, column)

section update

variable (d : Dashboard) {evt : TuiEvent} {r : AuditRecord} (h : Reports evt r)
include h

theorem updateStats_totals : ∀ c ∈ counters,
    c.1 (updateStats d evt).totals = c.1 d.totals + if r.CountedIn c.2 then 1 else 0 := by
  intro c hc
  show c.1 (countEvent _ _ evt).1 = _
  rw [countEvent_totals _ _ h.action c hc, counters_events _ _ c hc]
  unfold AuditRecord.CountedIn
  split <;> simp

theorem updateStats_events : (updateStats d evt).totals.events = d.totals.events + 1 :=
  countEvent_events _ _ h.action

theorem updateStats_sysStats :
    (updateStats d evt).sysStats = r.entry.toList.foldl (statOps.enterInto maxSyscalls) d.sysStats := by
  show (countEvent _ _ evt).2 = _
  rw [countEvent_rows _ _ h.action, h.syscallNr, AuditRecord.entry]
  cases (AuditAction.ofCode r.action).bind AuditAction.column <;> rfl

end update

/-- What the dashboard has after the events of the records `rs`, from `d` on. -/
structure After (d : Dashboard) (evts : List TuiEvent) (rs : List AuditRecord) (d' : Dashboard) : Prop where
  events : d'.totals.events = d.totals.events + BitVec.ofNat 64 rs.length
  totals : ∀ c ∈ counters, c.1 d'.totals = c.1 d.totals + BitVec.ofNat 64 (rs.countP (·.CountedIn c.2))
  sysStats : d'.sysStats = (rs.filterMap AuditRecord.entry).foldl (statOps.enterInto maxSyscalls) d.sysStats
  history : d'.history = d.history.pushAll evts

theorem after_updates {evts : List TuiEvent} {rs : List AuditRecord} (h : List.Forall₂ Reports evts rs) (d : Dashboard) :
    After d evts rs (evts.foldl updateStats d) := by
  induction h generalizing d with
  | nil => exact ⟨by simp, by simp, rfl, rfl⟩
  | @cons evt r evts rs hr _ ih =>
    have hrest := ih (updateStats d evt)
    refine ⟨?_, fun c hc => ?_, ?_, hrest.history⟩
    · rw [List.foldl_cons, hrest.events, updateStats_events d hr, List.length_cons, Nat.add_comm rs.length,
        BitVec.ofNat_add, BitVec.add_assoc]
      rfl
    · rw [List.foldl_cons, hrest.totals c hc, updateStats_totals d hr c hc, List.countP_cons, Nat.add_comm,
        BitVec.ofNat_add, BitVec.add_assoc]
      split <;> rfl
    · rw [List.foldl_cons, hrest.sysStats, updateStats_sysStats d hr, ← List.foldl_append]
      congr 1
      rw [List.filterMap_cons]
      cases r.entry <;> rfl

theorem foldl_bump (es : List (U32 × StatColumn)) (s : SyscallStats) :
    es.foldl (fun s e => s.bump e.2) s =
      ⟨s.nr, s.allowCount + BitVec.ofNat 64 (es.countP (·.2 = .allow)),
        s.blockCount + BitVec.ofNat 64 (es.countP (·.2 = .block)),
        s.fexitCount + BitVec.ofNat 64 (es.countP (·.2 = .fexit))⟩ := by
  induction es generalizing s with
  | nil => simp
  | cons e es ih =>
    obtain ⟨nr, column⟩ := e
    rw [List.foldl_cons, ih]
    cases column <;>
      simp [SyscallStats.bump, BitVec.ofNat_add, BitVec.add_assoc, BitVec.add_comm]

/-- A row of the table: how often the number came up in each column. -/
def statRow (entries : List (U32 × StatColumn)) (nr : U32) : SyscallStats where
  nr := nr
  allowCount := BitVec.ofNat 64 (entries.count (nr, .allow))
  blockCount := BitVec.ofNat 64 (entries.count (nr, .block))
  fexitCount := BitVec.ofNat 64 (entries.count (nr, .fexit))

theorem rowOf_statOps (entries : List (U32 × StatColumn)) (nr : U32) :
    statOps.rowOf entries nr = statRow entries nr := by
  have hcount : ∀ column, (entries.filter (statOps.eventKey · = nr)).countP (·.2 = column) =
      entries.count (nr, column) := by
    intro column
    rw [List.countP_filter, List.count]
    refine List.countP_congr fun e _ => ?_
    rw [Bool.and_eq_true, decide_eq_true_iff, decide_eq_true_iff, beq_iff_eq, Prod.ext_iff]
    exact and_comm
  show (entries.filter _).foldl (fun s e => s.bump e.2) (⟨nr, 0, 0, 0⟩ : SyscallStats) = _
  rw [foldl_bump, hcount, hcount, hcount]
  simp [statRow]

/-- The event at a record's place. -/
theorem exists_reports {evts : List TuiEvent} {rs : List AuditRecord} (h : List.Forall₂ Reports evts rs) {i : Nat}
    {r : AuditRecord} (hr : rs[i]? = some r) : ∃ evt, evts[i]? = some evt ∧ Reports evt r := by
  obtain ⟨hi, rfl⟩ := List.getElem?_eq_some_iff.mp hr
  have hi' : i < evts.length := by rwa [h.length_eq]
  exact ⟨evts[i], List.getElem?_eq_getElem hi', h.get hi' hi⟩

theorem counters_initial : ∀ c ∈ counters, c.1 Dashboard.initial.totals = 0 := by
  iterate 14 refine List.forall_mem_cons.mpr ⟨rfl, ?_⟩
  exact List.forall_mem_nil _

/-- What `main` has made of the loader's output. -/
theorem tuiMain_after (output : List OutputLine) :
    ∃ evts, List.Forall₂ Reports evts (output.filterMap OutputLine.record) ∧
      After .initial evts (output.filterMap OutputLine.record) (tuiMain (output.flatMap OutputLine.text)) := by
  obtain ⟨evts, hevts, hmain⟩ := foldl_tuiLine output .initial
  refine ⟨evts, hevts, ?_⟩
  rw [tuiMain, OutputLine.fgetsLines_text, hmain]
  exact after_updates hevts .initial

theorem tuiMain_totals (output : List OutputLine) : ∀ c ∈ counters,
    c.1 (tuiMain (output.flatMap OutputLine.text)).totals =
      BitVec.ofNat 64 ((output.filterMap OutputLine.record).countP (·.CountedIn c.2)) := by
  intro c hc
  obtain ⟨evts, -, hafter⟩ := tuiMain_after output
  rw [hafter.totals c hc, counters_initial c hc]
  exact BitVec.zero_add _

/-- **The dashboard shows the stream.** After any output of the loader, read to its end: the number of events
    and each counter are those of the records printed (modulo 2^64); the table has a row for each of the first
    512 numbers that were allowed, blocked or returned, in the order in which they came up, with its counts; and
    the list of recent events shows the last 256 records, the newest first. -/
theorem dashboard_exact (output : List OutputLine) :
    let records := output.filterMap OutputLine.record
    let entries := records.filterMap AuditRecord.entry
    let d := tuiMain (output.flatMap OutputLine.text)
    d.totals.events = BitVec.ofNat 64 records.length ∧
    (∀ c ∈ counters, c.1 d.totals = BitVec.ofNat 64 (records.countP (·.CountedIn c.2))) ∧
    d.sysStats = ((entries.map Prod.fst).eraseDups.take maxSyscalls).map (statRow entries) ∧
    d.history.count = min records.length maxHistory ∧
    ∀ i r, i < maxHistory → records.reverse[i]? = some r → Reports (d.recentEvent i) r := by
  intro records entries d
  obtain ⟨evts, hevts, hafter⟩ := tuiMain_after output
  have hholds : d.history.Holds evts := by
    rw [hafter.history]
    exact (Ring.holds_empty _).pushAll evts
  refine ⟨?_, tuiMain_totals output, ?_, ?_, fun i r hi hr => ?_⟩
  · rw [hafter.events]
    exact BitVec.zero_add _
  · have htally := statOps.tally_eq maxSyscalls entries
    rw [funext (rowOf_statOps entries)] at htally
    rw [hafter.sysStats]
    exact htally
  · rw [hholds.count, hevts.length_eq]
  · obtain ⟨evt, hevt, hreports⟩ := exists_reports (List.forall₂_reverse_iff.mpr hevts) hr
    have hrecent : d.recentEvent i = evt := hholds.recent hi hevt
    rwa [hrecent]

/-! From the kernel to the dashboard. -/

def AuditAction.code : AuditAction → U8
  | allow => 0
  | block => 1
  | cfiOk => 2
  | cfiFail => 3
  | nrMismatch => 4
  | forkTrack => 5
  | fexitOk => 6
  | dlopenExt => 7
  | permissive => 8
  | learn => 9
  | libDeny => 10
  | shadowOk => 11
  | shadowFail => 12
  | fallback => 13
  | kobjDeny => 14

@[simp] theorem AuditAction.ofCode_code (a : AuditAction) : AuditAction.ofCode a.code = some a := by
  cases a <;> rfl

/-- The record that `emit_audit` submits. -/
def AuditEvent.record (e : AuditEvent) : AuditRecord :=
  ⟨e.tgid, e.tid, e.syscallRip, e.offset, e.moduleId, e.syscallNr, e.action.code⟩

/-- `fexit_audit`: the return value travels in the offset. -/
def fexitAudit (fexitMode : Bool) (m : BpfMaps) (tgid tid syscallNr : U32) (ret : U64) : List AuditEvent :=
  if !fexitMode then []
  else
    match m.targetPid tgid with
    | none => []
    | some _ => [⟨tgid, tid, 0, ret, 0, syscallNr, .fexitOk⟩]

/-- The `fexit` programs. -/
inductive ExitHook
  | write
  | read
  | openat
  | mmap
  | connect
  deriving DecidableEq, Repr

def ExitHook.syscallNr : ExitHook → U32
  | write => 1
  | read => 0
  | openat => 257
  | mmap => 9
  | connect => 42

/-- A run of one of the programs of `sentinel.bpf.c` that emit events, with the maps it finds. -/
inductive KernelRun
  | entry (c : BpfConfig) (enforceMode : U32) (m : BpfMaps) (t : Thread) (hook : Hook)
  | exit (fexitMode : Bool) (m : BpfMaps) (tgid tid : U32) (hook : ExitHook) (ret : U64)
  | fork (m : TargetPidMap) (parentTgid childTgid : U32)

namespace KernelRun

def emitted : KernelRun → List AuditEvent
  | entry c enforceMode m t hook => ((hook.run c m t).execute enforceMode).emitted
  | exit fexitMode m tgid tid hook ret => fexitAudit fexitMode m tgid tid hook.syscallNr ret
  | fork m parentTgid childTgid => (sentinelForkTrack m parentTgid childTgid).2

/-- The run called `deny_action`. -/
def Denies : KernelRun → Bool
  | entry c _ m t hook => (hook.run c m t).deny.isSome
  | _ => false

end KernelRun

/-- A denial is counted as blocked. -/
def CheckResult.DeniesBlocked (r : CheckResult) : Prop := ∀ e, r.deny = some e → e.action ∈ blockedActions

theorem deniesBlocked_none (es : List AuditEvent) (learned : Option (U64 × U64)) :
    (CheckResult.mk none es learned).DeniesBlocked := by
  intro e he
  cases he

theorem deniesBlocked_some {e : AuditEvent} (h : e.action ∈ blockedActions) (es : List AuditEvent)
    (learned : Option (U64 × U64)) : (CheckResult.mk (some e) es learned).DeniesBlocked := by
  intro e' he
  cases he
  exact h

section denials

variable {c : BpfConfig} {m : BpfMaps} {t : Thread}

theorem checkCaller_deniesBlocked {event : AuditAction → AuditEvent} (hevent : ∀ a, (event a).action = a)
    (offset baseAddr : U64) (es : List AuditEvent) : (checkCaller c m t event offset baseAddr es).DeniesBlocked := by
  have hfail : (event .cfiFail).action ∈ blockedActions := by
    rw [hevent]
    decide
  unfold checkCaller
  split
  · exact deniesBlocked_none _ _
  · split
    · dsimp only
      split
      · exact deniesBlocked_none _ _
      · exact deniesBlocked_some hfail _ _
    · exact deniesBlocked_some hfail _ _

theorem checkStacks_deniesBlocked {event : AuditAction → AuditEvent} (hevent : ∀ a, (event a).action = a)
    (offset baseAddr : U64) : (checkStacks c m t event offset baseAddr).DeniesBlocked := by
  unfold checkStacks
  split
  · split
    · exact checkCaller_deniesBlocked hevent _ _ _
    · exact deniesBlocked_some (by rw [hevent]; decide) _ _
  · exact checkCaller_deniesBlocked hevent _ _ _

theorem checkModule_deniesBlocked (syscallNr : U32) (site : U64) (mod : VmaValue) :
    (checkModule c m t syscallNr site mod).DeniesBlocked := by
  unfold checkModule
  dsimp only
  split
  · exact deniesBlocked_none _ _
  · split
    · exact deniesBlocked_some (by dsimp only; decide) _ _
    · split
      · exact deniesBlocked_some (by dsimp only; decide) _ _
      · split
        · exact deniesBlocked_some (by dsimp only; decide) _ _
        · split
          · exact deniesBlocked_some (by dsimp only; decide) _ _
          · exact checkStacks_deniesBlocked (fun _ => rfl) _ _

theorem sentinelCheck_deniesBlocked (syscallNr : U32) : (sentinelCheck c m t syscallNr).DeniesBlocked := by
  unfold sentinelCheck
  split
  · split
    · exact deniesBlocked_none _ _
    · split
      · exact deniesBlocked_none _ _
      · exact deniesBlocked_some (by dsimp only; decide) _ _
  · split
    · exact deniesBlocked_none _ _
    · split
      · exact deniesBlocked_some (by dsimp only; decide) _ _
      · dsimp only
        split
        · split
          · exact deniesBlocked_none _ _
          · exact deniesBlocked_some (by dsimp only; decide) _ _
        · exact checkModule_deniesBlocked _ _ _

end denials

theorem AuditAction.Passing.not_blocked {a : AuditAction} (h : a.Passing) : a ∉ blockedActions := by
  revert h
  cases a <;> decide

/-- What a hook emits on its way is not counted as blocked, and what it denies with is. -/
theorem Hook.run_blocked (c : BpfConfig) (m : BpfMaps) (t : Thread) (hook : Hook) :
    (∀ e ∈ (hook.run c m t).audit, e.action ∉ blockedActions) ∧ (hook.run c m t).DeniesBlocked := by
  have hcheck : ∀ nr, (∀ e ∈ (sentinelCheck c m t nr).audit, e.action ∉ blockedActions) ∧
      (sentinelCheck c m t nr).DeniesBlocked := fun nr =>
    ⟨fun e he => ((sentinelCheck_sorted c m t nr).audit e he).not_blocked, sentinelCheck_deniesBlocked nr⟩
  have hmonitored : ∀ nr a, a ∈ blockedActions → (∀ e ∈ (denyMonitored m t nr a).audit, e.action ∉ blockedActions) ∧
      (denyMonitored m t nr a).DeniesBlocked := by
    intro nr a ha
    unfold denyMonitored
    split
    · exact ⟨List.forall_mem_nil _, deniesBlocked_none _ _⟩
    · exact ⟨List.forall_mem_nil _, deniesBlocked_some ha _ _⟩
  cases hook <;> first | exact hcheck _ | exact hmonitored _ _ (by decide)

theorem denyAction_blocked {enforceMode : U32} {e : AuditEvent} (h : e.action ∈ blockedActions) :
    (denyAction enforceMode e).1.action ∈ blockedActions := by
  unfold denyAction
  split
  · dsimp only
    decide
  · exact h

/-- A run emits one event that counts as blocked if it denies, and none otherwise. -/
theorem KernelRun.countP_emitted (k : KernelRun) :
    k.emitted.countP (·.action ∈ blockedActions) = if k.Denies then 1 else 0 := by
  cases k with
  | entry c enforceMode m t hook =>
    obtain ⟨haudit, hdeny⟩ := hook.run_blocked c m t
    show (((hook.run c m t).execute enforceMode).emitted).countP _ = if (hook.run c m t).deny.isSome then 1 else 0
    generalize hook.run c m t = r at haudit hdeny
    have hzero : r.audit.countP (·.action ∈ blockedActions) = 0 := by
      apply List.countP_eq_zero.mpr
      intro e he
      simpa using haudit e he
    rw [CheckResult.execute, List.countP_append, hzero]
    cases h : r.deny with
    | none => rfl
    | some e => simp [denyAction_blocked (hdeny e h)]
  | exit fexitMode m tgid tid hook ret =>
    show (fexitAudit ..).countP _ = 0
    unfold fexitAudit
    split
    · rfl
    · split <;> rfl
  | fork m parentTgid childTgid =>
    show (sentinelForkTrack ..).2.countP _ = 0
    unfold sentinelForkTrack
    split
    · rfl
    · split <;> rfl

theorem countP_flatMap_emitted (runs : List KernelRun) :
    (runs.flatMap KernelRun.emitted).countP (·.action ∈ blockedActions) = runs.countP KernelRun.Denies := by
  induction runs with
  | nil => rfl
  | cons k runs ih =>
    rw [List.flatMap_cons, List.countP_append, k.countP_emitted, ih, List.countP_cons, Nat.add_comm]

/-! The loop that reads the ring buffer. -/

/-- The records in the ring buffer, those that the loader has printed, and whether it still reads. -/
structure AuditLoop where
  pending : List AuditEvent
  printed : List AuditEvent
  polling : Bool

def AuditLoop.initial : AuditLoop := ⟨[], [], true⟩

/-- `emit_audit` in the kernel, with the outcome of the reservation; or a turn of the loop of `main`: `stop` if
    it ends (a signal, or `waitpid` finds the child gone), and else the number of records that
    `ring_buffer__poll` comes to read. -/
inductive AuditStep
  | emit (e : AuditEvent) (reserved : Bool)
  | turn (stop : Bool) (count : Nat)

def auditStep (s : AuditLoop) : AuditStep → AuditLoop
  | .emit e reserved => if reserved then { s with pending := s.pending ++ [e] } else s
  | .turn stop count =>
    if !s.polling then s
    else if stop then { s with polling := false }
    else { s with pending := s.pending.drop count, printed := s.printed ++ s.pending.take count }

namespace AuditStep

/-- The event of a call of `emit_audit`. -/
def call : AuditStep → Option AuditEvent
  | emit e _ => some e
  | turn .. => none

/-- The event that gets into the buffer. -/
def submitted : AuditStep → Option AuditEvent
  | emit e reserved => if reserved then some e else none
  | turn .. => none

end AuditStep

/-- Records leave the buffer in their order, to be printed. -/
theorem auditStep_records (s : AuditLoop) (step : AuditStep) :
    (auditStep s step).printed ++ (auditStep s step).pending = s.printed ++ s.pending ++ step.submitted.toList := by
  cases step with
  | emit e reserved => cases reserved <;> simp [auditStep, AuditStep.submitted]
  | turn stop count =>
    unfold auditStep
    dsimp only
    split
    · simp [AuditStep.submitted]
    · split <;> simp [AuditStep.submitted]

theorem auditRun_records (steps : List AuditStep) (s : AuditLoop) :
    (run auditStep s steps).printed ++ (run auditStep s steps).pending =
      s.printed ++ s.pending ++ steps.filterMap AuditStep.submitted := by
  induction steps generalizing s with
  | nil => simp [run]
  | cons step steps ih =>
    rw [run_cons, ih, auditStep_records, List.append_assoc, List.filterMap_cons]
    cases step.submitted <;> rfl

/-- A count over what gets into the buffer is the count over all the calls exactly when there is room for all
    that counts. -/
theorem countP_submitted (p : AuditEvent → Bool) (steps : List AuditStep) :
    (steps.filterMap AuditStep.submitted).countP p ≤ (steps.filterMap AuditStep.call).countP p ∧
      ((steps.filterMap AuditStep.submitted).countP p = (steps.filterMap AuditStep.call).countP p ↔
        ∀ e reserved, .emit e reserved ∈ steps → p e = true → reserved = true) := by
  induction steps with
  | nil => simp
  | cons step steps ih =>
    obtain ⟨hle, hiff⟩ := ih
    have hcons : (∀ e reserved, .emit e reserved ∈ step :: steps → p e = true → reserved = true) ↔
        (∀ e reserved, .emit e reserved = step → p e = true → reserved = true) ∧
          ∀ e reserved, .emit e reserved ∈ steps → p e = true → reserved = true := by
      simp only [List.mem_cons, or_imp, forall_and]
    rw [hcons, ← hiff]
    cases step with
    | turn stop count => exact ⟨hle, (and_iff_right fun _ _ heq => by cases heq).symm⟩
    | emit e reserved =>
      have hfirst : (∀ e' reserved', AuditStep.emit e' reserved' = .emit e reserved → p e' = true → reserved' = true) ↔
          (p e = true → reserved = true) := by
        simp only [AuditStep.emit.injEq, and_imp]
        exact ⟨fun h => h e reserved rfl rfl, fun h e' reserved' he hr => he ▸ hr ▸ h⟩
      rw [hfirst]
      cases reserved <;> cases hp : p e <;>
        simp [AuditStep.submitted, AuditStep.call, hp] <;> omega

/-- Of the records that count, all are printed exactly when there was room for them and none is left. -/
theorem countP_printed_iff (p : AuditEvent → Bool) (steps : List AuditStep) :
    (run auditStep .initial steps).printed.countP p ≤ (steps.filterMap AuditStep.call).countP p ∧
      ((run auditStep .initial steps).printed.countP p = (steps.filterMap AuditStep.call).countP p ↔
        (∀ e reserved, .emit e reserved ∈ steps → p e = true → reserved = true) ∧
        ∀ e ∈ (run auditStep .initial steps).pending, ¬ p e = true) := by
  obtain ⟨hle, hiff⟩ := countP_submitted p steps
  have hrecords := congrArg (List.countP p) (auditRun_records steps .initial)
  rw [List.countP_append] at hrecords
  change _ = (steps.filterMap AuditStep.submitted).countP p at hrecords
  rw [← hiff, ← List.countP_eq_zero]
  omega

/-- A tracked process calls `ptrace`. -/
def ptraceRun : KernelRun := .entry ⟨false, false, false, false, false⟩ enforceKill staticMaps staticThread .ptrace

def noon : PrintedClock where
  tbuf := ascii "2026-01-01T12:00:00"
  millis := 0
  no_quote := by decide +kernel
  fits := by decide +kernel
  millis_lt := by decide
  oneLine := oneLine_ascii (by decide)

/-- A call of the process that was denied, a poll, and the end of the process. -/
def ptraceSteps : List AuditStep := ptraceRun.emitted.map (.emit · true) ++ [.turn false 1, .turn true 0]

end SentinelStack.Cc
