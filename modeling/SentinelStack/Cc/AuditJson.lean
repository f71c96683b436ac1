import SentinelStack.Cc.Check
import SentinelStack.Lib.FlatJson
import SentinelStack.Lib.Printf

/- The audit log as JSON: `audit_event_handler` of the loader prints a record, and
   `parse_event` of `sentinel-tui` reads the line with its substring scanner.

   The printed line is a flat object of different keys whose values have no quote
   in them (`auditJson_eq`), so the scanner finds each member at its own place.
   Main result: `audit_json_roundtrip`. -/
namespace SentinelStack.Cc
open SentinelStack.Lib

/-- `struct audit_event`; the action is any byte. -/
structure AuditRecord where
  tgid : U32
  tid : U32
  syscallRip : U64
  offset : U64
  moduleId : U32
  syscallNr : U32
  action : U8
  deriving DecidableEq, Repr

/-- `EVENT_FEXIT_OK`. -/
def eventFexitOk : U8 := 6

/-- The actions by their codes. -/
def AuditAction.ofCode (code : U8) : Option AuditAction :=
  [.allow, .block, .cfiOk, .cfiFail, .nrMismatch, .forkTrack, .fexitOk, .dlopenExt, .permissive, .learn, .libDeny,
    .shadowOk, .shadowFail, .fallback, .kobjDeny][code.toNat]?

def AuditAction.str : AuditAction → CStr
  | allow => ascii "ALLOW"
  | block => ascii "BLOCK"
  | cfiOk => ascii "ALLOW+CFI"
  | cfiFail => ascii "CFI-FAIL"
  | nrMismatch => ascii "NR-MISMATCH"
  | forkTrack => ascii "FORK-TRACK"
  | fexitOk => ascii "FEXIT"
  | dlopenExt => ascii "DLOPEN-EXT"
  | permissive => ascii "PERMISSIVE"
  | learn => ascii "LEARN"
  | libDeny => ascii "LIB-DENY"
  | shadowOk => ascii "SHADOW-OK"
  | shadowFail => ascii "SHADOW-FAIL"
  | fallback => ascii "FALLBACK"
  | kobjDeny => ascii "KOBJ-DENY"

def actionStr (action : U8) : CStr :=
  match AuditAction.ofCode action with
  | some a => a.str
  | none => ascii "UNKNOWN"

/-- The time of the report: what `strftime` left in `tbuf[32]`, and the milliseconds. -/
structure Clock where
  tbuf : CStr
  millis : Nat
  no_quote : quote ∉ tbuf
  fits : tbuf.length < 32
  millis_lt : millis < 1000

/-- The text `snprintf` makes of a record, with its two formats. -/
def auditJson (evt : AuditRecord) (ts : Clock) : CStr :=
  if evt.action = eventFexitOk then
    ascii "\x7b\"ts\":\"" ++ ts.tbuf ++ ascii "." ++ fmtDecPadded 3 ts.millis ++ ascii "Z\",\"action\":\"" ++
      actionStr evt.action ++ ascii "\",\"pid\":" ++ fmtDec evt.tgid.toNat ++ ascii ",\"tid\":" ++ fmtDec evt.tid.toNat ++
      ascii ",\"syscall_nr\":" ++ fmtDec evt.syscallNr.toNat ++ ascii ",\"ret\":" ++ fmtInt evt.offset.toInt ++
      ascii "\x7d"
  else
    ascii "\x7b\"ts\":\"" ++ ts.tbuf ++ ascii "." ++ fmtDecPadded 3 ts.millis ++ ascii "Z\",\"action\":\"" ++
      actionStr evt.action ++ ascii "\",\"pid\":" ++ fmtDec evt.tgid.toNat ++ ascii ",\"tid\":" ++ fmtDec evt.tid.toNat ++
      ascii ",\"syscall_nr\":" ++ fmtDec evt.syscallNr.toNat ++ ascii ",\"rip\":\"0x" ++ fmtHex evt.syscallRip.toNat ++
      ascii "\",\"offset\":\"0x" ++ fmtHex evt.offset.toNat ++ ascii "\",\"module\":" ++ fmtDec evt.moduleId.toNat ++
      ascii "\x7d"

/-- `audit_event_handler` in the JSON format: the line it prints, unless `json[512]` is too small. -/
def auditEventHandler (evt : AuditRecord) (ts : Clock) : Option CStr :=
  if (auditJson evt ts).length ≥ 512 then none else some (auditJson evt ts ++ [newline])

/-! The scanner of `sentinel-tui`. -/

/-- `json_get_str` into a buffer of `max` bytes. -/
def jsonGetStr (json key : CStr) (max : Nat) : Option CStr :=
  let pat := strncpyz 64 (keyPattern key [quote])
  match strstr pat json with
  | none => none
  | some p =>
    let value := p.drop pat.length
    match strchr value quote with
    | none => none
    | some _ => some ((value.takeWhile (· ≠ quote)).take (max - 1))

/-- Where a number begins: after the pattern and any blanks. -/
def jsonNumber (json key : CStr) : Option CStr :=
  let pat := strncpyz 64 (keyPattern key [])
  (strstr pat json).map fun p => (p.drop pat.length).dropWhile (· = 0x20)

/-- `json_get_uint`: a value between quotes is refused. -/
def jsonGetUint (json key : CStr) : Option U32 :=
  match jsonNumber json key with
  | none => none
  | some p => if p.head? = some quote then none else some ((strtoul p).setWidth 32)

def jsonGetLong (json key : CStr) : Option Int := (jsonNumber json key).map strtol

structure TuiEvent where
  action : CStr
  pid : U32
  tid : U32
  syscallNr : U32
  ret : Int
  rip : CStr
  offset : CStr
  module : U32
  timestamp : CStr
  isFexit : Bool
  deriving DecidableEq, Repr

/-- `parse_event`: what is not found stays zero. -/
def parseEvent (line : CStr) : Option TuiEvent :=
  match jsonGetStr line (ascii "action") 16 with
  | none => none
  | some action =>
    let isFexit := decide (action = ascii "FEXIT")
    some
      { action := action
        pid := (jsonGetUint line (ascii "pid")).getD 0
        tid := (jsonGetUint line (ascii "tid")).getD 0
        syscallNr := (jsonGetUint line (ascii "syscall_nr")).getD 0
        ret := if isFexit then (jsonGetLong line (ascii "ret")).getD 0 else 0
        rip := (jsonGetStr line (ascii "rip") 20).getD []
        offset := (jsonGetStr line (ascii "offset") 20).getD []
        module := (jsonGetUint line (ascii "module")).getD 0
        timestamp := (jsonGetStr line (ascii "ts") 32).getD []
        isFexit := isFexit }

/-! The line as an object. -/

def Clock.member (ts : Clock) : Member :=
  ⟨ascii "ts", .str (ts.tbuf ++ (ascii "." ++ (fmtDecPadded 3 ts.millis ++ ascii "Z")))⟩

/-- The members after the time. -/
def AuditRecord.members (evt : AuditRecord) : List Member :=
  [⟨ascii "action", .str (actionStr evt.action)⟩, ⟨ascii "pid", .num (fmtDec evt.tgid.toNat)⟩,
    ⟨ascii "tid", .num (fmtDec evt.tid.toNat)⟩, ⟨ascii "syscall_nr", .num (fmtDec evt.syscallNr.toNat)⟩] ++
  if evt.action = eventFexitOk then [⟨ascii "ret", .num (fmtInt evt.offset.toInt)⟩]
  else
    [⟨ascii "rip", .str (ascii "0x" ++ fmtHex evt.syscallRip.toNat)⟩,
      ⟨ascii "offset", .str (ascii "0x" ++ fmtHex evt.offset.toNat)⟩, ⟨ascii "module", .num (fmtDec evt.moduleId.toNat)⟩]

theorem auditJson_eq (evt : AuditRecord) (ts : Clock) :
    auditJson evt ts ++ [newline] = objectText [newline] ts.member evt.members := by
  unfold auditJson AuditRecord.members
  split
  · simp only [objectText, membersText, Member.text, JsonValue.text, Clock.member, List.append_assoc, List.cons_append,
      List.nil_append]
    rfl
  · simp only [objectText, membersText, Member.text, JsonValue.text, Clock.member, List.append_assoc, List.cons_append,
      List.nil_append]
    rfl

theorem actionStr_spec (action : U8) : quote ∉ actionStr action ∧ (actionStr action).length ≤ 11 := by
  revert action
  decide +kernel

theorem quote_not_digit {s : CStr} (h : ∀ c ∈ s, isDecDigit c = true) : quote ∉ s :=
  fun hmem => absurd (h quote hmem) (by decide)

theorem quote_not_hex (n : Nat) : quote ∉ fmtHex n :=
  fun hmem => absurd (isSome_hexValue_of_mem_fmtHex n quote hmem) (by decide)

theorem quote_not_fmtInt (i : Int) : quote ∉ fmtInt i := by
  unfold fmtInt
  split
  · rw [List.mem_cons, not_or]
    exact ⟨by decide, quote_not_digit (isDecDigit_of_mem_fmtDec _)⟩
  · exact quote_not_digit (isDecDigit_of_mem_fmtDec _)

theorem quote_not_append {s s' : CStr} (h : quote ∉ s) (h' : quote ∉ s') : quote ∉ s ++ s' := by
  rw [List.mem_append, not_or]
  exact ⟨h, h'⟩

theorem clean_member (evt : AuditRecord) (ts : Clock) : ∀ m ∈ ts.member :: evt.members, m.Clean := by
  have hmember : ∀ (key : CStr) (value : JsonValue), quote ∉ key → quote ∉ value.inner → Member.Clean ⟨key, value⟩ :=
    fun _ _ hkey hvalue => ⟨hkey, hvalue⟩
  have hdec : ∀ (key : CStr) (n : Nat), quote ∉ key → Member.Clean ⟨key, .num (fmtDec n)⟩ :=
    fun key n hkey => hmember _ _ hkey (quote_not_digit (isDecDigit_of_mem_fmtDec n))
  have hhex : ∀ (key : CStr) (n : Nat), quote ∉ key → Member.Clean ⟨key, .str (ascii "0x" ++ fmtHex n)⟩ :=
    fun key n hkey => hmember _ _ hkey (quote_not_append (by decide) (quote_not_hex n))
  intro m hm
  rcases List.mem_cons.mp hm with rfl | hm
  · refine hmember _ _ (by decide +kernel)
      (quote_not_append ts.no_quote (quote_not_append (by decide) (quote_not_append ?_ (by decide))))
    exact quote_not_digit fun c hc => mem_fmtDecPadded hc
  · rcases List.mem_append.mp hm with hm | hm
    · simp only [List.mem_cons, List.not_mem_nil, or_false] at hm
      rcases hm with rfl | rfl | rfl | rfl
      · exact hmember _ _ (by decide +kernel) (actionStr_spec _).1
      · exact hdec _ _ (by decide +kernel)
      · exact hdec _ _ (by decide +kernel)
      · exact hdec _ _ (by decide +kernel)
    -- the members that tell the two kinds of event apart
    split at hm
    · rw [List.mem_singleton.mp hm]
      exact hmember _ _ (by decide +kernel) (quote_not_fmtInt _)
    · simp only [List.mem_cons, List.not_mem_nil, or_false] at hm
      rcases hm with rfl | rfl | rfl
      · exact hhex _ _ (by decide +kernel)
      · exact hhex _ _ (by decide +kernel)
      · exact hdec _ _ (by decide +kernel)

theorem keys_nodup (evt : AuditRecord) (ts : Clock) : ((ts.member :: evt.members).map Member.key).Nodup := by
  unfold AuditRecord.members
  split
  · show [ascii "ts", ascii "action", ascii "pid", ascii "tid", ascii "syscall_nr", ascii "ret"].Nodup
    decide +kernel
  · show [ascii "ts", ascii "action", ascii "pid", ascii "tid", ascii "syscall_nr", ascii "rip", ascii "offset",
      ascii "module"].Nodup
    decide +kernel

/-! Reading a member back. -/

/-- The keys in use leave `pat[64]` with room. -/
def Readable (key : CStr) : Prop := Plain key ∧ key.length < 60

instance (key : CStr) : Decidable (Readable key) := inferInstanceAs (Decidable (_ ∧ _))

section read
variable {evt : AuditRecord} {ts : Clock} {key : CStr}

theorem pattern_fits {start : CStr} (hkey : key.length < 60) (hstart : start.length ≤ 1) :
    strncpyz 64 (keyPattern key start) = keyPattern key start := by
  apply List.take_of_length_le
  simp only [keyPattern, List.length_cons, List.length_append]
  omega

/-- A string member comes back, cut to the buffer. -/
theorem jsonGetStr_member {s : CStr} (hm : ⟨key, .str s⟩ ∈ ts.member :: evt.members) (hkey : Readable key) (max : Nat) :
    jsonGetStr (objectText [newline] ts.member evt.members) key max = some (s.take (max - 1)) := by
  have hquote : quote ∉ s := (clean_member evt ts _ hm).2
  obtain ⟨post, hfound⟩ := strstr_objectText_of_mem [quote] [newline] (clean_member evt ts) (keys_nodup evt ts) hm
    hkey.1 fun rest => ⟨s ++ quote :: rest, by simp [JsonValue.text]⟩
  dsimp only at hfound
  have hvalue : ((Member.mk key (.str s)).text ++ membersText [newline] post).drop (keyPattern key [quote]).length =
      s ++ quote :: membersText [newline] post := by
    refine (drop_keyPattern ⟨key, .str s⟩ [quote] _).trans ?_
    simp [JsonValue.text]
  have htake : (s ++ quote :: membersText [newline] post).takeWhile (· ≠ quote) = s := by
    rw [List.takeWhile_append_of_pos fun c hc => decide_eq_true (ne_of_mem_of_not_mem hc hquote),
      List.takeWhile_cons_of_neg (by simp), List.append_nil]
  obtain ⟨front, -, hchr⟩ := strchr_append s quote (membersText [newline] post)
  unfold jsonGetStr
  rw [pattern_fits hkey.2 (by simp)]
  dsimp only
  rw [hfound]
  dsimp only
  rw [hvalue, hchr, htake]

/-- A number member is found, with its end in sight. -/
theorem jsonNumber_member {text : CStr} (hm : ⟨key, .num text⟩ ∈ ts.member :: evt.members) (hkey : Readable key)
    (hblank : text.head? ≠ some 0x20) (hne : text ≠ []) :
    ∃ rest, Stops isDecDigit rest ∧ jsonNumber (objectText [newline] ts.member evt.members) key = some (text ++ rest) := by
  obtain ⟨post, hfound⟩ := strstr_objectText_of_mem [] [newline] (clean_member evt ts) (keys_nodup evt ts) hm hkey.1
    fun rest => List.nil_prefix
  dsimp only at hfound
  refine ⟨membersText [newline] post, ?_, ?_⟩
  · intro c hc
    obtain ⟨d, rest, heq, hd⟩ := membersText_head [newline] post
    rw [heq] at hc
    cases hc
    rcases hd with rfl | rfl
    · decide
    · decide
  · have hvalue : ((Member.mk key (.num text)).text ++ membersText [newline] post).drop (keyPattern key []).length =
        text ++ membersText [newline] post := drop_keyPattern ⟨key, .num text⟩ [] _
    unfold jsonNumber
    rw [pattern_fits hkey.2 (by simp)]
    dsimp only
    rw [hfound, Option.map_some, hvalue]
    cases text with
    | nil => exact absurd rfl hne
    | cons c text =>
      refine congrArg some (List.dropWhile_cons_of_neg ?_)
      intro hc
      exact hblank (congrArg some (of_decide_eq_true hc))

theorem jsonGetUint_member {n : U32} (hm : ⟨key, .num (fmtDec n.toNat)⟩ ∈ ts.member :: evt.members) (hkey : Readable key) :
    jsonGetUint (objectText [newline] ts.member evt.members) key = some n := by
  have hdigits := isDecDigit_of_mem_fmtDec n.toNat
  have hhead : ∀ c, isDecDigit c = false → ∀ rest, (fmtDec n.toNat ++ rest).head? ≠ some c := by
    intro c hc rest
    cases hs : fmtDec n.toNat with
    | nil => exact absurd hs (fmtDec_ne_nil _)
    | cons d ds =>
      rw [hs] at hdigits
      intro heq
      cases heq
      exact absurd (hdigits c List.mem_cons_self) (by rw [hc]; exact Bool.false_ne_true)
  have hblank : (fmtDec n.toNat).head? ≠ some 0x20 := by
    have h := hhead 0x20 (by decide) []
    rwa [List.append_nil] at h
  obtain ⟨rest, hstop, hnum⟩ := jsonNumber_member hm hkey hblank (fmtDec_ne_nil _)
  have hn := n.isLt
  unfold jsonGetUint
  rw [hnum]
  dsimp only
  rw [if_neg (hhead quote (by decide) rest), strtoul_fmtDec (by omega) hstop]
  refine congrArg some (BitVec.eq_of_toNat_eq ?_)
  rw [BitVec.toNat_setWidth, BitVec.toNat_ofNat]
  omega

theorem jsonGetLong_member {i : Int} (hlow : -(2 ^ 63) ≤ i) (hhigh : i < 2 ^ 63)
    (hm : ⟨key, .num (fmtInt i)⟩ ∈ ts.member :: evt.members) (hkey : Readable key) :
    jsonGetLong (objectText [newline] ts.member evt.members) key = some i := by
  have hne : fmtInt i ≠ [] := by
    unfold fmtInt
    split
    · exact List.cons_ne_nil _ _
    · exact fmtDec_ne_nil _
  have hblank : (fmtInt i).head? ≠ some 0x20 := by
    unfold fmtInt
    split
    · rw [List.head?_cons]
      decide
    · intro hhead
      exact absurd (isDecDigit_of_mem_fmtDec _ _ (List.mem_of_head? hhead)) (by decide)
  obtain ⟨rest, hstop, hnum⟩ := jsonNumber_member hm hkey hblank hne
  unfold jsonGetLong
  rw [hnum, Option.map_some, strtol_fmtInt hlow hhigh hstop]

end read

/-! The round trip. -/

/-- The line fits the buffer. -/
theorem length_auditJson_lt (evt : AuditRecord) (ts : Clock) : (auditJson evt ts).length < 512 := by
  have hhex : ∀ n : U64, (fmtHex n.toNat).length ≤ 16 := fun n => length_fmtHex_le (by omega) (by have := n.isLt; omega)
  have hint : (fmtInt evt.offset.toInt).length ≤ 20 := by
    apply length_fmtInt_le
    have hlow := BitVec.le_toInt evt.offset
    have hhigh := BitVec.toInt_lt (x := evt.offset)
    omega
  have haction := (actionStr_spec evt.action).2
  have htbuf := ts.fits
  have hmillis := length_fmtDecPadded (by omega : 0 < 3) ts.millis_lt
  have htgid := length_fmtDec_u32 evt.tgid
  have htid := length_fmtDec_u32 evt.tid
  have hnr := length_fmtDec_u32 evt.syscallNr
  have hmodule := length_fmtDec_u32 evt.moduleId
  have haddrs := And.intro (hhex evt.syscallRip) (hhex evt.offset)
  -- the literals of the two formats
  have hcommon : (ascii "\x7b\"ts\":\"").length + (ascii ".").length + (ascii "Z\",\"action\":\"").length +
      (ascii "\",\"pid\":").length + (ascii ",\"tid\":").length + (ascii ",\"syscall_nr\":").length +
      (ascii "\x7d").length = 51 := by
    decide +kernel
  have hret : (ascii ",\"ret\":").length = 7 := by decide +kernel
  have hrip : (ascii ",\"rip\":\"0x").length + (ascii "\",\"offset\":\"0x").length +
      (ascii "\",\"module\":").length = 35 := by
    decide +kernel
  unfold auditJson
  split
  · simp only [List.length_append]
    omega
  · simp only [List.length_append]
    omega

section recovered
variable (evt : AuditRecord) (ts : Clock)

theorem jsonGetStr_action :
    jsonGetStr (objectText [newline] ts.member evt.members) (ascii "action") 16 = some (actionStr evt.action) := by
  have hmem : Member.mk (ascii "action") (.str (actionStr evt.action)) ∈ ts.member :: evt.members :=
    List.mem_cons_of_mem _ (List.mem_append_left _ (by simp))
  have hfits := (actionStr_spec evt.action).2
  rw [jsonGetStr_member hmem (by decide +kernel), List.take_of_length_le (by omega)]

theorem jsonGetUint_ids :
    jsonGetUint (objectText [newline] ts.member evt.members) (ascii "pid") = some evt.tgid ∧
      jsonGetUint (objectText [newline] ts.member evt.members) (ascii "tid") = some evt.tid ∧
      jsonGetUint (objectText [newline] ts.member evt.members) (ascii "syscall_nr") = some evt.syscallNr := by
  have hpid : Member.mk (ascii "pid") (.num (fmtDec evt.tgid.toNat)) ∈ ts.member :: evt.members :=
    List.mem_cons_of_mem _ (List.mem_append_left _ (by simp))
  have htid : Member.mk (ascii "tid") (.num (fmtDec evt.tid.toNat)) ∈ ts.member :: evt.members :=
    List.mem_cons_of_mem _ (List.mem_append_left _ (by simp))
  have hnr : Member.mk (ascii "syscall_nr") (.num (fmtDec evt.syscallNr.toNat)) ∈ ts.member :: evt.members :=
    List.mem_cons_of_mem _ (List.mem_append_left _ (by simp))
  exact ⟨jsonGetUint_member hpid (by decide +kernel), jsonGetUint_member htid (by decide +kernel),
    jsonGetUint_member hnr (by decide +kernel)⟩

/-- An address as it is printed is shorter than its buffer, and says which address it is. -/
theorem scanHex_buffer (x : U64) : scanHex ((ascii "0x" ++ fmtHex x.toNat).take 19) = some (x, []) := by
  have hx := x.isLt
  have hhex : (fmtHex x.toNat).length ≤ 16 := length_fmtHex_le (by omega) (by omega)
  have hlen : (ascii "0x" ++ fmtHex x.toNat).length ≤ 19 := by
    rw [List.length_append, show (ascii "0x").length = 2 from rfl]
    omega
  have hround : scanHex (ascii "0x" ++ fmtHex x.toNat ++ []) = some (x, []) :=
    scanHex_fmtHex x fun c hc => absurd hc (Option.not_mem_none c)
  rw [List.append_nil] at hround
  rw [List.take_of_length_le hlen, hround]

variable {evt}

theorem jsonGet_ordinary (h : evt.action ≠ eventFexitOk) :
    (∃ rip, jsonGetStr (objectText [newline] ts.member evt.members) (ascii "rip") 20 = some rip ∧
        scanHex rip = some (evt.syscallRip, [])) ∧
      (∃ offset, jsonGetStr (objectText [newline] ts.member evt.members) (ascii "offset") 20 = some offset ∧
        scanHex offset = some (evt.offset, [])) ∧
      jsonGetUint (objectText [newline] ts.member evt.members) (ascii "module") = some evt.moduleId := by
  have hmembers : ∀ m ∈ [Member.mk (ascii "rip") (.str (ascii "0x" ++ fmtHex evt.syscallRip.toNat)),
      ⟨ascii "offset", .str (ascii "0x" ++ fmtHex evt.offset.toNat)⟩,
      ⟨ascii "module", .num (fmtDec evt.moduleId.toNat)⟩], m ∈ ts.member :: evt.members := by
    intro m hm
    refine List.mem_cons_of_mem _ (List.mem_append_right _ ?_)
    rw [if_neg h]
    exact hm
  have hrip := hmembers ⟨ascii "rip", .str (ascii "0x" ++ fmtHex evt.syscallRip.toNat)⟩ (by simp)
  have hoffset := hmembers ⟨ascii "offset", .str (ascii "0x" ++ fmtHex evt.offset.toNat)⟩ (by simp)
  have hmodule := hmembers ⟨ascii "module", .num (fmtDec evt.moduleId.toNat)⟩ (by simp)
  exact ⟨⟨_, jsonGetStr_member hrip (by decide +kernel) 20, scanHex_buffer _⟩,
    ⟨_, jsonGetStr_member hoffset (by decide +kernel) 20, scanHex_buffer _⟩, jsonGetUint_member hmodule (by decide +kernel)⟩

theorem jsonGetLong_ret (h : evt.action = eventFexitOk) :
    jsonGetLong (objectText [newline] ts.member evt.members) (ascii "ret") = some evt.offset.toInt := by
  have hmem : Member.mk (ascii "ret") (.num (fmtInt evt.offset.toInt)) ∈ ts.member :: evt.members := by
    refine List.mem_cons_of_mem _ (List.mem_append_right _ ?_)
    rw [if_pos h]
    exact List.mem_singleton_self _
  have hlow := BitVec.le_toInt evt.offset
  have hhigh := BitVec.toInt_lt (x := evt.offset)
  exact jsonGetLong_member (by omega) (by omega) hmem (by decide +kernel)

end recovered

/-- The event shows the record: all that its line has, by the action. -/
structure Reports (evt : TuiEvent) (r : AuditRecord) : Prop where
  action : evt.action = actionStr r.action
  pid : evt.pid = r.tgid
  tid : evt.tid = r.tid
  syscallNr : evt.syscallNr = r.syscallNr
  ordinary : r.action ≠ eventFexitOk →
    scanHex evt.rip = some (r.syscallRip, []) ∧ scanHex evt.offset = some (r.offset, []) ∧ evt.module = r.moduleId
  fexit : r.action = eventFexitOk → evt.isFexit = true ∧ evt.ret = r.offset.toInt

/-- What `parse_event` makes of a printed line shows the record. -/
theorem parseEvent_printed (r : AuditRecord) (ts : Clock) :
    ∃ evt, parseEvent (auditJson r ts ++ [newline]) = some evt ∧ Reports evt r := by
  obtain ⟨hpid, htid, hnr⟩ := jsonGetUint_ids r ts
  rw [auditJson_eq, parseEvent, jsonGetStr_action]
  refine ⟨_, rfl, rfl, ?_, ?_, ?_, fun hordinary => ?_, fun hfexit => ?_⟩
  · simp only [hpid, Option.getD_some]
  · simp only [htid, Option.getD_some]
  · simp only [hnr, Option.getD_some]
  · obtain ⟨⟨rip, hrip, hscan⟩, ⟨offset, hoffset, hscan'⟩, hmodule⟩ := jsonGet_ordinary ts hordinary
    simp only [hrip, hoffset, hmodule, Option.getD_some]
    exact ⟨hscan, hscan', trivial⟩
  · have hstr : actionStr r.action = ascii "FEXIT" := by
      rw [hfexit]
      rfl
    simp [hstr, jsonGetLong_ret ts hfexit]

/-- **Audit JSON round trip.** For every record and every time: the line is printed, and `parse_event`
    recovers from it the action string, the pid, the tid and the syscall number; of an ordinary event
    the address, the offset and the module, and of an `fexit` event the signed return value. -/
theorem audit_json_roundtrip (evt : AuditRecord) (ts : Clock) :
    ∃ line parsed, auditEventHandler evt ts = some line ∧ parseEvent line = some parsed ∧
      parsed.action = actionStr evt.action ∧ parsed.pid = evt.tgid ∧ parsed.tid = evt.tid ∧
      parsed.syscallNr = evt.syscallNr ∧
      (evt.action ≠ eventFexitOk →
        scanHex parsed.rip = some (evt.syscallRip, []) ∧ scanHex parsed.offset = some (evt.offset, []) ∧
          parsed.module = evt.moduleId) ∧
      (evt.action = eventFexitOk → parsed.isFexit = true ∧ parsed.ret = evt.offset.toInt) := by
  have hline : auditEventHandler evt ts = some (auditJson evt ts ++ [newline]) := by
    have hlen := length_auditJson_lt evt ts
    rw [auditEventHandler, if_neg (by omega)]
  obtain ⟨parsed, hparsed, hreports⟩ := parseEvent_printed evt ts
  exact ⟨_, parsed, hline, hparsed, hreports.action, hreports.pid, hreports.tid, hreports.syscallNr,
    hreports.ordinary, hreports.fexit⟩

end SentinelStack.Cc
