import SentinelStack.Lib.FlatJson
import SentinelStack.Lib.Printf
import SentinelStack.Lib.Run
import SentinelStack.Lib.Writes
import SentinelStack.Vmi.TaskWalker

/- The offsets of the kernel's structures (`task_walker.c`): from the BTF of the
   kernel as `bpftool` prints it, or one of the two profiles that are built in.

   The reader goes through the text line by line. A line that names a structure
   opens it, one that is not indented closes it, and an indented line within
   `task_struct` or `cred` gives the offset of a member. Against the text stands what
   it was printed from (`BtfType`): structures with their members, and types of
   other kinds with whatever lines they have. `scanned` is the state of the reader in
   terms of the members printed so far; `run_type` is the step over one type. Main
   result: `btf_offsets_read_back` — of every dump, the reader finds the offsets of
   the last members with the names it knows, those of the 6.6 profile for names that
   are missing, and nothing at all if one of nine names is.

   The order of the profiles is that of `ensure_offsets_profile_selected`. A version
   is recognised by a part of it: 6.12 is taken for 6.1. -/
namespace SentinelStack.Vmi
open SentinelStack.Lib

/-! The reader. -/

def apostrophe : U8 := 0x27
def tab : U8 := 0x09

/-- `strtoull(s, &endptr, 10)` reads something. -/
def strtoulReads (s : CStr) : Bool := (takeSign (s.dropWhile isSpace)).2.head?.any isDecDigit

/-- The member a line names, and its offset in bytes. -/
def parseBtfMemberLine (line : CStr) (memberSz : Nat) : Option (CStr × U64) :=
  match strchr line apostrophe with
  | none => none
  | some q1 =>
    match strchr (q1.drop 1) apostrophe with
    | none => none
    | some q2 =>
      let len := (q1.drop 1).length - q2.length
      if len = 0 ∨ len ≥ memberSz then none
      else
        match strstr (ascii "bits_offset=") q2 with
        | none => none
        | some bits =>
          let bits := bits.drop (ascii "bits_offset=").length
          if ¬ strtoulReads bits then none else some ((q1.drop 1).take len, strtoul bits / 8)

/-- A member the reader knows; one that is required has a bit in the mask. -/
structure BtfField where
  name : CStr
  required : Bool
  set : U64 → TaskOffsets → TaskOffsets

def btfTaskFields : List BtfField :=
  [⟨ascii "tasks", true, fun o t => { t with tasksOffset := o }⟩,
    ⟨ascii "pid", true, fun o t => { t with pidOffset := o }⟩,
    ⟨ascii "tgid", true, fun o t => { t with tgidOffset := o }⟩,
    ⟨ascii "real_parent", false, fun o t => { t with realParentOffset := o }⟩,
    ⟨ascii "comm", true, fun o t => { t with commOffset := o }⟩,
    ⟨ascii "mm", true, fun o t => { t with mmOffset := o }⟩,
    ⟨ascii "files", false, fun o t => { t with filesOffset := o }⟩,
    ⟨ascii "nsproxy", false, fun o t => { t with nsproxyOffset := o }⟩,
    ⟨ascii "start_time", false, fun o t => { t with startTimeOffset := o }⟩,
    ⟨ascii "flags", false, fun o t => { t with flagsOffset := o }⟩,
    ⟨ascii "cred", true, fun o t => { t with credOffset := o }⟩]

def btfCredFields : List BtfField :=
  [⟨ascii "uid", true, fun o t => { t with credUidOffset := o }⟩,
    ⟨ascii "gid", true, fun o t => { t with credGidOffset := o }⟩,
    ⟨ascii "euid", true, fun o t => { t with credEuidOffset := o }⟩,
    ⟨ascii "egid", false, fun o t => { t with credEgidOffset := o }⟩,
    ⟨ascii "cap_effective", false, fun o t => { t with credCapEffectiveOffset := o }⟩]

/-- The structure the lines are in: `in_task`, `in_cred`, or neither. -/
inductive BtfScope where
  | task
  | cred
  | neither
  deriving DecidableEq, Repr

/-- The masks as the names whose bits are set. -/
structure BtfScan where
  offsets : TaskOffsets
  taskSeen : List CStr
  credSeen : List CStr
  scope : BtfScope

/-- The branch for a member, if there is one. -/
def setMember (fields : List BtfField) (name : CStr) (offset : U64) (t : TaskOffsets) : TaskOffsets :=
  match fields.find? (·.name = name) with
  | none => t
  | some f => f.set offset t

def markMember (fields : List BtfField) (name : CStr) (seen : List CStr) : List CStr :=
  match fields.find? (·.name = name) with
  | none => seen
  | some f => if f.required then seen ++ [name] else seen

/-- What is done with a member, by the structure it is in. -/
def storeMember (st : BtfScan) (member : CStr) (byteOffset : U64) : BtfScan :=
  match st.scope with
  | .task =>
    { st with
      offsets := setMember btfTaskFields member byteOffset st.offsets
      taskSeen := markMember btfTaskFields member st.taskSeen }
  | .cred =>
    { st with
      offsets := setMember btfCredFields member byteOffset st.offsets
      credSeen := markMember btfCredFields member st.credSeen }
  | .neither => st

/-- The body of the loop. -/
def btfLine (st : BtfScan) (line : CStr) : BtfScan :=
  if Strstr line (ascii "STRUCT 'task_struct'") then { st with scope := .task }
  else if Strstr line (ascii "STRUCT 'cred'") then { st with scope := .cred }
  else if line.head? ≠ some tab ∧ line.head? ≠ some 0x20 then { st with scope := .neither }
  else
    match parseBtfMemberLine line 128 with
    | none => st
    | some (member, byteOffset) => storeMember st member byteOffset

/-- Every required member has been seen. -/
def allSeen (fields : List BtfField) (seen : List CStr) : Bool :=
  fields.all fun f => !f.required || seen.any (· = f.name)

def btfStart : BtfScan := ⟨offsets66, [], [], .neither⟩

/-- `try_load_offsets_from_btf`: `readable` is the outcome of `access`, `output` what the pipe gives
    if it opens, `closed` that `pclose` does not fail. -/
def tryLoadOffsetsFromBtf (readable : Bool) (output : Option (List U8)) (closed : Bool) : Option TaskOffsets :=
  if ¬ readable then none
  else
    match output with
    | none => none
    | some text =>
      let st := run btfLine btfStart (fgetsLines 2048 text)
      if ¬ closed then none
      else if allSeen btfTaskFields st.taskSeen ∧ allSeen btfCredFields st.credSeen then some st.offsets
      else none

/-! Profiles. -/

/-- `OFFSETS_6_1`. -/
def offsets61 : TaskOffsets where
  tasksOffset := 0x290
  pidOffset := 0x390
  tgidOffset := 0x394
  realParentOffset := 0x2a8
  commOffset := 0x550
  mmOffset := 0x260
  filesOffset := 0x298
  nsproxyOffset := 0x530
  startTimeOffset := 0x4e8
  flagsOffset := 0x070
  credOffset := 0x530
  credUidOffset := 0x04
  credGidOffset := 0x08
  credEuidOffset := 0x14
  credEgidOffset := 0x18
  credCapEffectiveOffset := 0x28

/-- `select_offsets_profile`, where `btf` is what loading the BTF gives. -/
def selectOffsetsProfile (btf : Option TaskOffsets) (kernelVersion : CStr) : Option TaskOffsets :=
  if kernelVersion = [] then none
  else if Strstr kernelVersion (ascii "btf") then btf
  else if Strstr kernelVersion (ascii "6.6") then some offsets66
  else if Strstr kernelVersion (ascii "6.1") then some offsets61
  else none

/-- The profile in force after `ensure_offsets_profile_selected`. -/
def ensureOffsetsProfileSelected (btf : Option TaskOffsets) (envProfile disableBtf : Option CStr) : TaskOffsets :=
  match envProfile.bind (selectOffsetsProfile btf) with
  | some profile => profile
  | none =>
    if disableBtf = some (ascii "1") then offsets66
    else (selectOffsetsProfile btf (ascii "btf-auto")).getD offsets66

example : (ensureOffsetsProfileSelected none (some (ascii "6.12.3")) none).pidOffset = offsets61.pidOffset := by
  decide +kernel

/-! What is printed. -/

/-- A name between the apostrophes, with room for the rest of its line in the reader's buffer. -/
structure BtfName where
  chars : CStr
  oneLine : OneLine chars
  unquoted : apostrophe ∉ chars
  fits : chars.length ≤ 1976

structure BtfMember where
  name : BtfName
  typeId : U32
  bitsOffset : U32
  bitfieldSize : Option U32

namespace BtfMember

def offset (m : BtfMember) : U64 := BitVec.ofNat 64 (m.bitsOffset.toNat / 8)

def bitfield (m : BtfMember) : CStr :=
  (m.bitfieldSize.map fun n => ascii " bitfield_size=" ++ fmtDec n.toNat).getD []

/-- `'name' type_id=… bits_offset=…`, and the size of a bit field. -/
def line (m : BtfMember) : CStr :=
  [tab] ++ apostrophe :: (m.name.chars ++ apostrophe :: (ascii " type_id=" ++ fmtDec m.typeId.toNat ++
    (ascii " bits_offset=" ++ (fmtDec m.bitsOffset.toNat ++ m.bitfield))))

end BtfMember

/-- `[id] STRUCT 'name' size=… vlen=…`. -/
def structHeader (id : U32) (name : BtfName) (size : U32) (vlen : Nat) : CStr :=
  (ascii "[" ++ fmtDec id.toNat ++ ascii "] STRUCT ") ++ apostrophe :: (name.chars ++ apostrophe ::
    (ascii " size=" ++ fmtDec size.toNat ++ ascii " vlen=" ++ fmtDec vlen))

/-- The reader does not take the line for the beginning of one of its two structures. -/
def OpensNothing (line : CStr) : Prop :=
  ¬ Strstr line (ascii "STRUCT 'task_struct'") ∧ ¬ Strstr line (ascii "STRUCT 'cred'")

/-- A type of the kernel: a structure, or any other kind with the lines that `bpftool` prints of it. -/
inductive BtfType where
  | struct (id : U32) (name : BtfName) (size : U32) (members : List BtfMember) (vlen : members.length < 2 ^ 16)
  | other (header : CStr) (details : List CStr) (outer : header.head? ≠ some tab ∧ header.head? ≠ some 0x20)
      (fits : ∀ line ∈ header :: details, OneLine line ∧ line.length < 2047)
      (opensNothing : ∀ line ∈ header :: details, OpensNothing line)

namespace BtfType

def lines : BtfType → List CStr
  | struct id name size members _ => structHeader id name size members.length :: members.map BtfMember.line
  | other header details .. => header :: details

def taskMembers : BtfType → List BtfMember
  | struct _ name _ members _ => if name.chars = ascii "task_struct" then members else []
  | other .. => []

def credMembers : BtfType → List BtfMember
  | struct _ name _ members _ => if name.chars = ascii "cred" then members else []
  | other .. => []

end BtfType

/-- What `bpftool` writes. -/
def btfDump (types : List BtfType) : List U8 := (types.flatMap BtfType.lines).flatMap (· ++ [newline])

/-- The offset in bytes of the last member with the name. -/
def offsetOf (members : List BtfMember) (name : CStr) (default : U64) : U64 :=
  (lastFor name (members.map fun m => (m.name.chars, m.offset))).getD default

/-- The offsets that the members give. -/
def layoutOffsets (task cred : List BtfMember) : TaskOffsets where
  tasksOffset := offsetOf task (ascii "tasks") offsets66.tasksOffset
  pidOffset := offsetOf task (ascii "pid") offsets66.pidOffset
  tgidOffset := offsetOf task (ascii "tgid") offsets66.tgidOffset
  realParentOffset := offsetOf task (ascii "real_parent") offsets66.realParentOffset
  commOffset := offsetOf task (ascii "comm") offsets66.commOffset
  mmOffset := offsetOf task (ascii "mm") offsets66.mmOffset
  filesOffset := offsetOf task (ascii "files") offsets66.filesOffset
  nsproxyOffset := offsetOf task (ascii "nsproxy") offsets66.nsproxyOffset
  startTimeOffset := offsetOf task (ascii "start_time") offsets66.startTimeOffset
  flagsOffset := offsetOf task (ascii "flags") offsets66.flagsOffset
  credOffset := offsetOf task (ascii "cred") offsets66.credOffset
  credUidOffset := offsetOf cred (ascii "uid") offsets66.credUidOffset
  credGidOffset := offsetOf cred (ascii "gid") offsets66.credGidOffset
  credEuidOffset := offsetOf cred (ascii "euid") offsets66.credEuidOffset
  credEgidOffset := offsetOf cred (ascii "egid") offsets66.credEgidOffset
  credCapEffectiveOffset := offsetOf cred (ascii "cap_effective") offsets66.credCapEffectiveOffset

/-- The offsets of a kernel with these types, if it has the members that are required. -/
def btfLayout (types : List BtfType) : Option TaskOffsets :=
  let task := types.flatMap BtfType.taskMembers
  let cred := types.flatMap BtfType.credMembers
  if allSeen btfTaskFields (task.map (·.name.chars)) ∧ allSeen btfCredFields (cred.map (·.name.chars)) then
    some (layoutOffsets task cred)
  else none

/-! The lines that are printed. -/

theorem isDecDigit_ne_apostrophe {c : U8} (h : isDecDigit c = true) : c ≠ apostrophe ∧ c ≠ 0x62 := by
  revert c
  decide +kernel

theorem notMem_fmtDec (n : Nat) : apostrophe ∉ fmtDec n ∧ (0x62 : U8) ∉ fmtDec n :=
  ⟨fun h => (isDecDigit_ne_apostrophe (isDecDigit_of_mem_fmtDec n _ h)).1 rfl,
    fun h => (isDecDigit_ne_apostrophe (isDecDigit_of_mem_fmtDec n _ h)).2 rfl⟩

namespace BtfMember
variable (m : BtfMember)

theorem oneLine_bitfield : OneLine m.bitfield := by
  unfold bitfield
  cases m.bitfieldSize with
  | none => exact List.forall_mem_nil _
  | some n => exact oneLine_append.mpr ⟨oneLine_ascii (by decide), oneLine_fmtDec _⟩

theorem length_bitfield_le : m.bitfield.length ≤ 25 := by
  unfold bitfield
  cases m.bitfieldSize with
  | none => exact Nat.zero_le _
  | some n =>
    have hdigits := length_fmtDec_u32 n
    show (ascii " bitfield_size=" ++ fmtDec n.toNat).length ≤ 25
    rw [List.length_append, show (ascii " bitfield_size=").length = 15 from rfl]
    omega

theorem apostrophe_notMem_bitfield : apostrophe ∉ m.bitfield := by
  unfold bitfield
  cases m.bitfieldSize with
  | none => exact List.not_mem_nil
  | some n =>
    show apostrophe ∉ ascii " bitfield_size=" ++ fmtDec n.toNat
    rw [List.mem_append, not_or]
    exact ⟨by decide +kernel, (notMem_fmtDec _).1⟩

theorem line_fits : OneLine m.line ∧ m.line.length < 2047 := by
  have hname := m.name.fits
  have htype := length_fmtDec_u32 m.typeId
  have hbits := length_fmtDec_u32 m.bitsOffset
  have hfield := m.length_bitfield_le
  refine ⟨?_, ?_⟩
  · simp only [line, oneLine_append, oneLine_cons, m.name.oneLine, oneLine_fmtDec, m.oneLine_bitfield, and_true,
      true_and]
    exact ⟨⟨by decide, List.forall_mem_nil _⟩, by decide, by decide, oneLine_ascii (by decide), oneLine_ascii (by decide)⟩
  · have hfixed : (ascii " type_id=").length = 9 ∧ (ascii " bits_offset=").length = 13 := ⟨rfl, rfl⟩
    simp only [line, List.length_append, List.length_cons, List.length_nil, hfixed]
    omega

end BtfMember

theorem structHeader_fits (id : U32) (name : BtfName) (size : U32) {vlen : Nat} (hvlen : vlen < 2 ^ 16) :
    OneLine (structHeader id name size vlen) ∧ (structHeader id name size vlen).length < 2047 := by
  have hname := name.fits
  have hid := length_fmtDec_u32 id
  have hsize := length_fmtDec_u32 size
  have hcount := length_fmtDec_le (n := vlen) (k := 5) (by decide) (by omega)
  refine ⟨?_, ?_⟩
  · simp only [structHeader, oneLine_append, oneLine_cons, name.oneLine, oneLine_fmtDec, and_true, true_and]
    exact ⟨⟨oneLine_ascii (by decide), oneLine_ascii (by decide)⟩, by decide, by decide, oneLine_ascii (by decide),
      oneLine_ascii (by decide)⟩
  · have hfixed : (ascii "[").length = 1 ∧ (ascii "] STRUCT ").length = 9 ∧ (ascii " size=").length = 6 ∧
        (ascii " vlen=").length = 6 := ⟨rfl, rfl, rfl, rfl⟩
    simp only [structHeader, List.length_append, List.length_cons, hfixed]
    omega

theorem BtfType.lines_fit (t : BtfType) : ∀ line ∈ t.lines, OneLine line ∧ line.length < 2047 := by
  cases t with
  | struct id name size members vlen =>
    refine List.forall_mem_cons.mpr ⟨structHeader_fits id name size vlen, ?_⟩
    intro line hline
    obtain ⟨m, -, rfl⟩ := List.mem_map.mp hline
    exact m.line_fits
  | other header details outer fits unopened => exact fits

theorem fgetsLines_btfDump (types : List BtfType) :
    fgetsLines 2048 (btfDump types) = (types.flatMap BtfType.lines).map (· ++ [newline]) := by
  apply fgetsLines_unlines
  intro line hline
  obtain ⟨t, -, hline⟩ := List.mem_flatMap.mp hline
  exact ⟨(t.lines_fit line hline).1, Nat.succ_lt_succ (t.lines_fit line hline).2⟩

/-! What is read from a member's line. -/

namespace BtfMember
variable (m : BtfMember)

/-- What stands behind the name. -/
def tail (m : BtfMember) : CStr :=
  ascii " type_id=" ++ fmtDec m.typeId.toNat ++ ascii " " ++
    (ascii "bits_offset=" ++ (fmtDec m.bitsOffset.toNat ++ (m.bitfield ++ [newline])))

theorem line_eq : m.line ++ [newline] = [tab] ++ apostrophe :: (m.name.chars ++ apostrophe :: m.tail) := by
  rw [line, tail, show ascii " bits_offset=" = ascii " " ++ ascii "bits_offset=" from rfl]
  simp

theorem apostrophe_notMem_tail : apostrophe ∉ m.tail := by
  simp only [tail, List.mem_append, not_or, notMem_fmtDec, m.apostrophe_notMem_bitfield]
  decide +kernel

theorem stops_bitfield : Stops isDecDigit (m.bitfield ++ [newline]) := by
  unfold bitfield
  cases m.bitfieldSize with
  | none =>
    intro c hc
    obtain rfl : newline = c := Option.some.inj hc
    rfl
  | some n =>
    intro c hc
    obtain rfl : 0x20 = c := Option.some.inj hc
    rfl

theorem strstr_tail : strstr (ascii "bits_offset=") (apostrophe :: m.tail) =
    some (ascii "bits_offset=" ++ (fmtDec m.bitsOffset.toNat ++ (m.bitfield ++ [newline]))) := by
  have hskipped : (0x62 : U8) ∉ apostrophe :: (ascii " type_id=" ++ fmtDec m.typeId.toNat ++ ascii " ") := by
    simp only [List.mem_cons, List.mem_append, not_or, notMem_fmtDec]
    decide +kernel
  exact (strstr_append_of_not_mem hskipped _).trans (strstr_here (List.prefix_append _ _))

theorem strtoul_bits : strtoul (fmtDec m.bitsOffset.toNat ++ (m.bitfield ++ [newline])) / 8 = m.offset := by
  have hbits := m.bitsOffset.isLt
  rw [strtoul_fmtDec (by omega) m.stops_bitfield]
  apply BitVec.eq_of_toNat_eq
  rw [BitVec.toNat_udiv, BitVec.toNat_ofNat, offset, BitVec.toNat_ofNat, show (8 : U64).toNat = 8 from rfl]
  omega

theorem strtoulReads_bits : strtoulReads (fmtDec m.bitsOffset.toNat ++ (m.bitfield ++ [newline])) = true := by
  have hdigit := isDecDigit_of_mem_fmtDec m.bitsOffset.toNat
  rw [strtoulReads, takeSign_fmtDec]
  cases hs : fmtDec m.bitsOffset.toNat with
  | nil => exact absurd hs (fmtDec_ne_nil _)
  | cons c digits => exact hdigit c (hs ▸ List.mem_cons_self)

/-- The name and the offset are read back, unless there is no name or no room for it. -/
theorem parse_line : parseBtfMemberLine (m.line ++ [newline]) 128 =
    if m.name.chars.length = 0 ∨ m.name.chars.length ≥ 128 then none else some (m.name.chars, m.offset) := by
  have hopen : strchr (m.line ++ [newline]) apostrophe = some (apostrophe :: (m.name.chars ++ apostrophe :: m.tail)) := by
    rw [line_eq]
    exact strchr_of_notMem (by decide) _
  have hclose : strchr (m.name.chars ++ apostrophe :: m.tail) apostrophe = some (apostrophe :: m.tail) :=
    strchr_of_notMem m.name.unquoted _
  have hlen : (m.name.chars ++ apostrophe :: m.tail).length - (apostrophe :: m.tail).length = m.name.chars.length := by
    rw [List.length_append, Nat.add_sub_cancel]
  unfold parseBtfMemberLine
  simp only [hopen, List.drop_one, List.tail_cons, hclose, hlen, strstr_tail, List.drop_left, List.take_left,
    m.strtoulReads_bits, m.strtoul_bits, not_true_eq_false, if_false]

example : parseBtfMemberLine (ascii "\t'pid' type_id=7 bits_offset=7360\n") 128 = some (ascii "pid", 920) := by
  decide +kernel

end BtfMember

/-! Which lines open a structure. -/

/-- What the reader looks for. -/
def opening (name : CStr) : CStr := ascii "STRUCT " ++ apostrophe :: (name ++ [apostrophe])

theorem opening_task : ascii "STRUCT 'task_struct'" = opening (ascii "task_struct") := rfl

theorem opening_cred : ascii "STRUCT 'cred'" = opening (ascii "cred") := rfl

/-- Of the lines of structures, only the first one does. -/
theorem strstr_structHeader_iff (id : U32) (name : BtfName) (size : U32) (vlen : Nat) {sought : CStr}
    (hsought : apostrophe ∉ sought) :
    Strstr (structHeader id name size vlen ++ [newline]) (opening sought) ↔ name.chars = sought := by
  have htext : structHeader id name size vlen ++ [newline] =
      (ascii "[" ++ fmtDec id.toNat ++ ascii "] STRUCT ") ++ apostrophe :: (name.chars ++ apostrophe ::
        (ascii " size=" ++ fmtDec size.toNat ++ ascii " vlen=" ++ fmtDec vlen ++ [newline])) := by
    simp [structHeader]
  rw [htext]
  refine ⟨fun h => ?_, fun h => ?_⟩
  · refine (infix_quoted ?_ name.unquoted ?_ hsought h).2.symm
    · simp only [List.mem_append, not_or, notMem_fmtDec]
      decide +kernel
    · simp only [List.mem_append, not_or, notMem_fmtDec]
      decide +kernel
  · refine ⟨ascii "[" ++ fmtDec id.toNat ++ ascii "] ",
      ascii " size=" ++ fmtDec size.toNat ++ ascii " vlen=" ++ fmtDec vlen ++ [newline], ?_⟩
    rw [h, show ascii "] STRUCT " = ascii "] " ++ ascii "STRUCT " from rfl]
    simp [opening]

theorem opensNothing_line (m : BtfMember) : OpensNothing (m.line ++ [newline]) := by
  have hnever : ∀ sought : CStr, apostrophe ∉ sought → ¬ Strstr (m.line ++ [newline]) (opening sought) := by
    intro sought hsought h
    rw [m.line_eq] at h
    have hfront : ascii "STRUCT " <:+ [tab] :=
      (infix_quoted (by decide) m.name.unquoted m.apostrophe_notMem_tail hsought h).1
    exact absurd hfront.length_le (by decide)
  exact ⟨hnever (ascii "task_struct") (by decide +kernel), hnever (ascii "cred") (by decide +kernel)⟩

/-- The end of a line is no part of what the reader looks for. -/
theorem strstr_append_newline {line sought : CStr} (h : Strstr (line ++ [newline]) (opening sought)) :
    Strstr line (opening sought) := by
  rcases List.infix_concat_iff.mp h with hend | hinside
  · obtain hnil | ⟨front, hopening, -⟩ := List.suffix_concat_iff.mp hend
    · simp [opening] at hnil
    · rw [opening, ← List.cons_append, ← List.append_assoc] at hopening
      exact absurd (List.append_inj_right' hopening rfl) (by decide)
  · exact hinside

theorem OpensNothing.append_newline {line : CStr} (h : OpensNothing line) : OpensNothing (line ++ [newline]) := by
  rw [OpensNothing, opening_task, opening_cred] at h ⊢
  exact ⟨mt strstr_append_newline h.1, mt strstr_append_newline h.2⟩

/-! The scan. -/

/-- The structure a header opens. -/
def BtfScope.ofName (name : CStr) : BtfScope :=
  if name = ascii "task_struct" then .task else if name = ascii "cred" then .cred else .neither

theorem BtfScope.ofName_task {name : CStr} : BtfScope.ofName name = .task ↔ name = ascii "task_struct" := by
  unfold BtfScope.ofName
  split_ifs <;> simp [*, ascii_inj]

theorem BtfScope.ofName_cred {name : CStr} : BtfScope.ofName name = .cred ↔ name = ascii "cred" := by
  unfold BtfScope.ofName
  split_ifs <;> simp [*, ascii_inj]

theorem btfLine_header (st : BtfScan) (id : U32) (name : BtfName) (size : U32) (vlen : Nat) :
    btfLine st (structHeader id name size vlen ++ [newline]) = { st with scope := .ofName name.chars } := by
  have htask := strstr_structHeader_iff id name size vlen (show apostrophe ∉ ascii "task_struct" by decide +kernel)
  have hcred := strstr_structHeader_iff id name size vlen (show apostrophe ∉ ascii "cred" by decide +kernel)
  have hhead : (structHeader id name size vlen ++ [newline]).head? = some 0x5B := rfl
  unfold btfLine BtfScope.ofName
  simp only [opening_task, opening_cred, htask, hcred, hhead]
  split
  · rfl
  · split
    · rfl
    · rw [if_pos (by decide)]

theorem btfLine_outside {st : BtfScan} (hscope : st.scope = .neither) {line : CStr} (h : OpensNothing line) :
    btfLine st line = st := by
  have hst : { st with scope := .neither } = st := by rw [← hscope]
  rw [btfLine, if_neg h.1, if_neg h.2]
  split
  · exact hst
  · split
    · rfl
    · rw [storeMember, hscope]

/-- The table has a branch for the name that sets a bit. -/
def isRequired (fields : List BtfField) (name : CStr) : Bool := (fields.find? (·.name = name)).any (·.required)

def requiredNames (fields : List BtfField) (members : List BtfMember) : List CStr :=
  (members.map (·.name.chars)).filter (isRequired fields)

/-- The state after the members of the two structures have been read. -/
def scanned (task cred : List BtfMember) (scope : BtfScope) : BtfScan :=
  ⟨layoutOffsets task cred, requiredNames btfTaskFields task, requiredNames btfCredFields cred, scope⟩

theorem markMember_requiredNames (fields : List BtfField) (members : List BtfMember) (m : BtfMember) :
    markMember fields m.name.chars (requiredNames fields members) = requiredNames fields (members ++ [m]) := by
  unfold requiredNames
  rw [List.map_append, List.filter_append, List.map_singleton, List.filter_singleton, isRequired, markMember]
  cases hfind : fields.find? (·.name = m.name.chars) with
  | none => simp
  | some f => cases hreq : f.required <;> simp [hreq]

theorem offsetOf_append (members : List BtfMember) (m : BtfMember) (name : CStr) (default : U64) :
    offsetOf (members ++ [m]) name default = if name = m.name.chars then m.offset else offsetOf members name default := by
  unfold offsetOf
  rw [List.map_append, lastFor_append, List.map_singleton, lastFor_cons, lastFor_nil, Option.none_or]
  by_cases h : m.name.chars = name
  · simp [h]
  · simp [h, Ne.symm h]

section
variable {fields : List BtfField} {name : CStr} (h : ∀ f ∈ fields, f.name ≠ name)
include h

theorem find_unknown : fields.find? (·.name = name) = none := List.find?_eq_none.mpr fun f hf => by simpa using h f hf

theorem setMember_unknown (offset : U64) (t : TaskOffsets) : setMember fields name offset t = t := by
  rw [setMember, find_unknown h]

theorem markMember_unknown (seen : List CStr) : markMember fields name seen = seen := by
  rw [markMember, find_unknown h]

end

/-- The reader's names have room in its buffer, so a name that has none is not known to it. -/
theorem known_names_fit : ∀ fields ∈ [btfTaskFields, btfCredFields], ∀ f ∈ fields,
    ¬ (f.name.length = 0 ∨ f.name.length ≥ 128) := by
  decide +kernel

theorem storeMember_unreadable (st : BtfScan) {name : CStr} (h : name.length = 0 ∨ name.length ≥ 128) (offset : U64) :
    storeMember st name offset = st := by
  have hunknown : ∀ fields ∈ [btfTaskFields, btfCredFields], ∀ f ∈ fields, f.name ≠ name := by
    rintro fields hfields f hf rfl
    exact known_names_fit fields hfields f hf h
  have htask := hunknown btfTaskFields (by simp)
  have hcred := hunknown btfCredFields (by simp)
  unfold storeMember
  split
  · rw [setMember_unknown htask, markMember_unknown htask]
  · rw [setMember_unknown hcred, markMember_unknown hcred]
  · rfl

theorem btfLine_line (st : BtfScan) (m : BtfMember) :
    btfLine st (m.line ++ [newline]) = storeMember st m.name.chars m.offset := by
  have hhead : (m.line ++ [newline]).head? = some tab := rfl
  rw [btfLine, if_neg (opensNothing_line m).1, if_neg (opensNothing_line m).2, if_neg (by simp [hhead]), m.parse_line]
  by_cases h : m.name.chars.length = 0 ∨ m.name.chars.length ≥ 128
  · rw [if_pos h, storeMember_unreadable st h]
  · rw [if_neg h]

/-- The branch for a member of `task_struct` stores where it is. -/
theorem setMember_task (task cred : List BtfMember) (m : BtfMember) :
    setMember btfTaskFields m.name.chars m.offset (layoutOffsets task cred) = layoutOffsets (task ++ [m]) cred := by
  by_cases hknown : ∃ f ∈ btfTaskFields, f.name = m.name.chars
  · simp only [btfTaskFields, List.exists_mem_cons_iff, List.not_mem_nil, false_and, exists_false, or_false] at hknown
    rcases hknown with h | h | h | h | h | h | h | h | h | h | h <;>
      simp [setMember, btfTaskFields, layoutOffsets, offsetOf_append, ← h, ascii_inj]
  · have hunknown : ∀ f ∈ btfTaskFields, f.name ≠ m.name.chars := fun f hf heq => hknown ⟨f, hf, heq⟩
    rw [setMember_unknown hunknown]
    simp only [btfTaskFields, List.forall_mem_cons] at hunknown
    simp [layoutOffsets, offsetOf_append, hunknown]

theorem setMember_cred (task cred : List BtfMember) (m : BtfMember) :
    setMember btfCredFields m.name.chars m.offset (layoutOffsets task cred) = layoutOffsets task (cred ++ [m]) := by
  by_cases hknown : ∃ f ∈ btfCredFields, f.name = m.name.chars
  · simp only [btfCredFields, List.exists_mem_cons_iff, List.not_mem_nil, false_and, exists_false, or_false] at hknown
    rcases hknown with h | h | h | h | h <;>
      simp [setMember, btfCredFields, layoutOffsets, offsetOf_append, ← h, ascii_inj]
  · have hunknown : ∀ f ∈ btfCredFields, f.name ≠ m.name.chars := fun f hf heq => hknown ⟨f, hf, heq⟩
    rw [setMember_unknown hunknown]
    simp only [btfCredFields, List.forall_mem_cons] at hunknown
    simp [layoutOffsets, offsetOf_append, hunknown]

theorem storeMember_scanned (task cred : List BtfMember) (scope : BtfScope) (m : BtfMember) :
    storeMember (scanned task cred scope) m.name.chars m.offset =
      scanned (task ++ if scope = .task then [m] else []) (cred ++ if scope = .cred then [m] else []) scope := by
  cases scope with
  | task => simp [storeMember, scanned, setMember_task, markMember_requiredNames]
  | cred => simp [storeMember, scanned, setMember_cred, markMember_requiredNames]
  | neither => simp [storeMember, scanned]

/-- The members of a structure are added to those of the structures with its name before it. -/
theorem run_members (task cred : List BtfMember) (scope : BtfScope) (members : List BtfMember) :
    run btfLine (scanned task cred scope) (members.map fun m => m.line ++ [newline]) =
      scanned (task ++ if scope = .task then members else []) (cred ++ if scope = .cred then members else []) scope := by
  induction members generalizing task cred with
  | nil => simp
  | cons m members ih =>
    rw [List.map_cons, run_cons, btfLine_line, storeMember_scanned, ih]
    cases scope <;> simp

theorem run_outside {st : BtfScan} (hscope : st.scope = .neither) {lines : List CStr}
    (h : ∀ line ∈ lines, OpensNothing line) : run btfLine st (lines.map (· ++ [newline])) = st := by
  induction lines with
  | nil => rfl
  | cons line lines ih =>
    obtain ⟨hline, hlines⟩ := List.forall_mem_cons.mp h
    rw [List.map_cons, run_cons, btfLine_outside hscope hline.append_newline, ih hlines]

/-- One type: whatever came before it, its first line says where its members belong. -/
theorem run_type (task cred : List BtfMember) (scope : BtfScope) (t : BtfType) :
    ∃ scope', run btfLine (scanned task cred scope) (t.lines.map (· ++ [newline])) =
      scanned (task ++ t.taskMembers) (cred ++ t.credMembers) scope' := by
  cases t with
  | struct id name size members vlen =>
    refine ⟨.ofName name.chars, ?_⟩
    have hheader : btfLine (scanned task cred scope) (structHeader id name size members.length ++ [newline]) =
        scanned task cred (.ofName name.chars) := btfLine_header ..
    show run btfLine _ ((structHeader id name size members.length :: members.map BtfMember.line).map (· ++ [newline])) = _
    rw [List.map_cons, List.map_map, run_cons, hheader]
    exact (run_members task cred _ members).trans (by simp only [BtfScope.ofName_task, BtfScope.ofName_cred]; rfl)
  | other header details outer fits opensNothing =>
    refine ⟨.neither, ?_⟩
    obtain ⟨hopens, hdetails⟩ := List.forall_mem_cons.mp opensNothing
    have hheader : btfLine (scanned task cred scope) (header ++ [newline]) = scanned task cred .neither := by
      have hhead : (header ++ [newline]).head? ≠ some tab ∧ (header ++ [newline]).head? ≠ some 0x20 := by
        cases header with
        | nil => decide
        | cons c header => exact outer
      rw [btfLine, if_neg hopens.append_newline.1, if_neg hopens.append_newline.2, if_pos hhead]
      rfl
    show run btfLine _ ((header :: details).map (· ++ [newline])) = scanned (task ++ []) (cred ++ []) _
    rw [List.map_cons, run_cons, hheader, List.append_nil, List.append_nil]
    exact run_outside rfl hdetails

theorem run_types (task cred : List BtfMember) (scope : BtfScope) (types : List BtfType) :
    ∃ scope', run btfLine (scanned task cred scope) ((types.flatMap BtfType.lines).map (· ++ [newline])) =
      scanned (task ++ types.flatMap BtfType.taskMembers) (cred ++ types.flatMap BtfType.credMembers) scope' := by
  induction types generalizing task cred scope with
  | nil => exact ⟨scope, by simp⟩
  | cons t types ih =>
    obtain ⟨between, hfirst⟩ := run_type task cred scope t
    obtain ⟨after, hrest⟩ := ih (task ++ t.taskMembers) (cred ++ t.credMembers) between
    refine ⟨after, ?_⟩
    rw [List.flatMap_cons, List.map_append, run_append, hfirst, hrest]
    simp

/-- The bits say which of the required members there are. -/
theorem allSeen_requiredNames {fields : List BtfField}
    (h : ∀ f ∈ fields, f.required = true → isRequired fields f.name = true) (members : List BtfMember) :
    allSeen fields (requiredNames fields members) = allSeen fields (members.map (·.name.chars)) := by
  rw [Bool.eq_iff_iff]
  simp only [allSeen, List.all_eq_true]
  refine forall₂_congr fun f hf => ?_
  cases hreq : f.required with
  | false => simp
  | true =>
    have hname := h f hf hreq
    simp only [Bool.not_true, Bool.false_or, List.any_eq_true, decide_eq_true_eq, requiredNames, List.mem_filter]
    refine ⟨fun hseen => ?_, fun hseen => ?_⟩
    · obtain ⟨name, ⟨hmem, -⟩, heq⟩ := hseen
      exact ⟨name, hmem, heq⟩
    · obtain ⟨name, hmem, rfl⟩ := hseen
      exact ⟨f.name, ⟨hmem, hname⟩, rfl⟩

/-- **What is printed is read back.** From the dump of any list of types the reader takes the offsets of the last
    members with the names it knows, and those of the 6.6 profile for names that are missing; if one of the nine
    required names is missing it takes none, and without settings the 6.6 profile stays in force. -/
theorem btf_offsets_read_back (types : List BtfType) :
    tryLoadOffsetsFromBtf true (some (btfDump types)) true = btfLayout types ∧
    ensureOffsetsProfileSelected (tryLoadOffsetsFromBtf true (some (btfDump types)) true) none none =
      (btfLayout types).getD offsets66 := by
  have hload : tryLoadOffsetsFromBtf true (some (btfDump types)) true = btfLayout types := by
    obtain ⟨scope, hrun⟩ := run_types [] [] .neither types
    have hscan : run btfLine btfStart (fgetsLines 2048 (btfDump types)) =
        scanned (types.flatMap BtfType.taskMembers) (types.flatMap BtfType.credMembers) scope := by
      rw [fgetsLines_btfDump]
      exact hrun
    have hrequired : (∀ f ∈ btfTaskFields, f.required = true → isRequired btfTaskFields f.name = true) ∧
        ∀ f ∈ btfCredFields, f.required = true → isRequired btfCredFields f.name = true := by decide +kernel
    have htask := allSeen_requiredNames hrequired.1 (types.flatMap BtfType.taskMembers)
    have hcred := allSeen_requiredNames hrequired.2 (types.flatMap BtfType.credMembers)
    simp only [tryLoadOffsetsFromBtf, btfLayout, hscan, scanned, htask, hcred, not_true_eq_false, if_false]
  refine ⟨hload, ?_⟩
  rw [hload]
  rfl

end SentinelStack.Vmi
