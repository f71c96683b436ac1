import SentinelStack.Cc.Check
import SentinelStack.Lib.BoundedMap
import SentinelStack.Lib.Printf
import SentinelStack.Lib.Run

/- Learn mode: what `sentinel_check` records in `learn_map` over a run, and the
   learned policy file that the loader writes from it at the end.

   The map is keyed by the offset alone, an update never replaces an entry, and
   the loader walks the keys with `bpf_map_get_next_key` from the key 0. Main
   result: `learned_iff_distinct_offsets` — the file lists what was observed and
   nothing else, if and only if no two different observations share an offset and
   none is at offset 0. -/
namespace SentinelStack.Cc
open SentinelStack.Lib

/-- A hooked syscall, with the maps as they are at that moment. -/
structure LearnEvent where
  maps : BpfMaps
  thread : Thread
  syscallNr : U32

/-- The syscall `syscallNr` seen at an offset of a module. -/
structure Observation where
  moduleId : U32
  offset : U64
  syscallNr : U32
  deriving DecidableEq, Repr

/-- What `sentinel_check` observes: the site, where the process is tracked and in scope and the trie
    knows the module. -/
def LearnEvent.observation (c : BpfConfig) (e : LearnEvent) : Option Observation :=
  if e.maps.targetPid e.thread.tgid = none ∨ (c.cgroupFilter ∧ e.maps.cgroup e.thread.cgroupId = none) then none
  else
    match e.thread.rip with
    | none => none
    | some rip => (vmaLookup e.maps.vma (rip - 2)).map fun mod => ⟨mod.moduleId, rip - 2 - mod.baseAddr, e.syscallNr⟩

def observations (c : BpfConfig) (events : List LearnEvent) : List Observation := events.filterMap (·.observation c)

/-- `learn_map`: offset → (module id << 32) | syscall number, `max_entries` 8192. -/
abbrev LearnMap : Type := BoundedMap U64 U64 8192

/-- The update of `learn_map` with `BPF_NOEXIST` that a hooked syscall makes. -/
def learnStep (c : BpfConfig) (m : LearnMap) (e : LearnEvent) : LearnMap :=
  match (sentinelCheck c e.maps e.thread e.syscallNr).learned with
  | none => m
  | some (offset, learnVal) => m.putNew offset learnVal

def learnMapAfter (c : BpfConfig) (events : List LearnEvent) : LearnMap := run (learnStep c) BoundedMap.empty events

/-- A line of the file: `0x%lx %u %u` of an offset, a syscall number and a module id. -/
def learnedLine (offset : U64) (nr modId : U32) : CStr :=
  ascii "0x" ++ fmtHex offset.toNat ++
    ((0x20 : U8) :: (fmtDec nr.toNat ++ ((0x20 : U8) :: (fmtDec modId.toNat ++ [newline]))))

/-- The lines of the loop, where the map yields its keys in the given order. -/
def learnedEntries (m : LearnMap) (order : List U64) : List CStr :=
  (BoundedMap.walkKeys order (order.length + 1) 0).filterMap fun nextKey =>
    (m.lookup nextKey).map fun val : U64 => learnedLine nextKey (val.setWidth 32) ((val >>> 32).setWidth 32)

/-- The line that an observation asks for. -/
def Observation.line (o : Observation) : CStr := learnedLine o.offset o.syscallNr o.moduleId

/-- What the map holds for an observation. -/
def Observation.value (o : Observation) : U64 := (o.moduleId.setWidth 64 <<< 32) ||| o.syscallNr.setWidth 64

/-! One syscall. -/

theorem sentinelCheck_learned {c : BpfConfig} (hlearn : c.learnMode = true) (e : LearnEvent) :
    (sentinelCheck c e.maps e.thread e.syscallNr).learned = (e.observation c).map fun o => (o.offset, o.value) := by
  unfold sentinelCheck LearnEvent.observation
  cases htarget : e.maps.targetPid e.thread.tgid with
  | none =>
    rw [if_pos (Or.inl rfl)]
    dsimp only
    split
    · rfl
    · split
      · rfl
      · rfl
  | some v =>
    dsimp only
    by_cases hout : c.cgroupFilter = true ∧ e.maps.cgroup e.thread.cgroupId = none
    · rw [if_pos hout, if_pos (Or.inr hout)]
      rfl
    · rw [if_neg hout, if_neg fun h => h.elim (Option.some_ne_none v) hout]
      cases e.thread.rip with
      | none => rfl
      | some rip =>
        dsimp only
        cases vmaLookup e.maps.vma (rip - 2) with
        | none =>
          dsimp only
          rw [if_pos hlearn]
          rfl
        | some mod =>
          dsimp only
          unfold checkModule
          dsimp only
          rw [if_pos hlearn]
          rfl

theorem value_halves (o : Observation) :
    o.value.setWidth 32 = o.syscallNr ∧ (o.value >>> 32).setWidth 32 = o.moduleId := by
  unfold Observation.value
  constructor
  · apply BitVec.eq_of_getLsbD_eq
    intro i hi
    simp [hi]
  · apply BitVec.eq_of_getLsbD_eq
    intro i hi
    have hhigh : 32 + i < 64 := by omega
    have hlow : i < 64 := by omega
    simp [hi, hhigh, hlow]

theorem learnedLine_value (o : Observation) :
    learnedLine o.offset (o.value.setWidth 32) ((o.value >>> 32).setWidth 32) = o.line := by
  rw [(value_halves o).1, (value_halves o).2]
  rfl

/-- A line can be read back. -/
theorem line_inj {o o' : Observation} (h : o.line = o'.line) : o = o' := by
  -- first the offset up to the blank, then the two numbers
  have hstop : ∀ rest : CStr, Stops (fun c => (hexValue c).isSome) (0x20 :: rest) := by
    intro rest c hc
    cases hc
    decide
  have hdec : ∀ rest : CStr, Stops isDecDigit (0x20 :: rest) := by
    intro rest c hc
    cases hc
    decide
  have hscan := congrArg scanHex h
  unfold Observation.line learnedLine at hscan
  rw [scanHex_fmtHex _ (hstop _), scanHex_fmtHex _ (hstop _)] at hscan
  obtain ⟨hoffset, hrest⟩ := Prod.mk.inj (Option.some.inj hscan)
  have hnumbers := (List.cons.inj hrest).2
  have hnr : o.syscallNr.toNat = o'.syscallNr.toNat := by
    rw [← takeDec_fmtDec_append o.syscallNr.toNat (hdec _), hnumbers, takeDec_fmtDec_append _ (hdec _)]
  rw [hnr] at hnumbers
  have hmod := fmtDec_inj (List.append_cancel_right (List.cons.inj (List.append_cancel_left hnumbers)).2)
  cases o
  cases o'
  simp only [Observation.mk.injEq]
  exact ⟨BitVec.eq_of_toNat_eq hmod, hoffset, BitVec.eq_of_toNat_eq hnr⟩

/-! Whole runs. -/

section run
variable {c : BpfConfig} {events : List LearnEvent}

theorem learnMapAfter_eq (hlearn : c.learnMode = true) (events : List LearnEvent) :
    learnMapAfter c events = BoundedMap.empty.putNewAll ((observations c events).map fun o => (o.offset, o.value)) := by
  have hrun : ∀ m : LearnMap,
      run (learnStep c) m events = m.putNewAll ((observations c events).map fun o => (o.offset, o.value)) := by
    induction events with
    | nil => exact fun _ => rfl
    | cons e events ih =>
      intro m
      rw [run_cons, ih, learnStep, sentinelCheck_learned hlearn]
      unfold observations
      cases hobs : e.observation c with
      | none => rw [List.filterMap_cons_none hobs]; rfl
      | some o => rw [List.filterMap_cons_some hobs]; rfl
  exact hrun BoundedMap.empty

/-- Under each offset the map holds what was observed there first. -/
theorem learnMapAfter_lookup (hlearn : c.learnMode = true) (hcount : (observations c events).dedup.length ≤ 8192)
    (k : U64) :
    (learnMapAfter c events).lookup k = ((observations c events).find? fun o => o.offset = k).map Observation.value := by
  have hkeys : ((observations c events).map fun o => (o.offset, o.value)).map Prod.fst ⊆
      (observations c events).dedup.map Observation.offset := by
    intro k hk
    rw [List.map_map] at hk
    obtain ⟨o, ho, rfl⟩ := List.mem_map.mp hk
    exact List.mem_map_of_mem (List.mem_dedup.mpr ho)
  rw [learnMapAfter_eq hlearn,
    BoundedMap.lookup_putNewAll ((observations c events).dedup.map Observation.offset) (List.nil_subset _) hkeys
      (by rw [List.length_map]; exact hcount)]
  show Option.or none _ = _
  rw [Option.none_or, List.find?_map, Option.map_map]
  rfl

theorem learnMapAfter_sound (hlearn : c.learnMode = true) (hcount : (observations c events).dedup.length ≤ 8192)
    {k v : U64} (h : (learnMapAfter c events).lookup k = some v) :
    ∃ o ∈ observations c events, o.offset = k ∧ v = o.value := by
  rw [learnMapAfter_lookup hlearn hcount] at h
  obtain ⟨o, ho, rfl⟩ := Option.map_eq_some_iff.mp h
  exact ⟨o, List.mem_of_find?_eq_some ho, by simpa using List.find?_some ho, rfl⟩

theorem learnMapAfter_holds (hlearn : c.learnMode = true) (hcount : (observations c events).dedup.length ≤ 8192)
    {o : Observation} (h : o ∈ observations c events) : ((learnMapAfter c events).lookup o.offset).isSome := by
  rw [learnMapAfter_lookup hlearn hcount, Option.isSome_map, List.find?_isSome]
  exact ⟨o, h, by simp⟩

end run

/-- What the walk from the key 0 leaves out. -/
theorem mem_walk_iff {order : List U64} (h : order.Nodup) :
    (0 ∉ order → ∀ k, k ∈ BoundedMap.walkKeys order (order.length + 1) 0 ↔ k ∈ order) ∧
      0 ∉ BoundedMap.walkKeys order (order.length + 1) 0 := by
  constructor
  · intro hzero k
    rw [BoundedMap.walkKeys_of_absent h hzero (Nat.lt_succ_self _)]
  · by_cases hzero : (0 : U64) ∈ order
    · obtain ⟨pre, post, rfl⟩ := List.append_of_mem hzero
      rw [BoundedMap.walkKeys_of_mem h (by simp; omega)]
      exact (List.nodup_cons.mp (List.nodup_append.mp h).2.1).1
    · rw [BoundedMap.walkKeys_of_absent h hzero (Nat.lt_succ_self _)]
      exact hzero

section file
variable {c : BpfConfig} {events : List LearnEvent} {order : List U64}

/-- The map kept the observation, and the walk over its keys comes to it. -/
def Kept (c : BpfConfig) (events : List LearnEvent) (order : List U64) (o : Observation) : Prop :=
  o.offset ∈ BoundedMap.walkKeys order (order.length + 1) 0 ∧ (learnMapAfter c events).lookup o.offset = some o.value

/-- The entries of the file are the lines of the observations that were kept. -/
theorem mem_learnedEntries_iff (hlearn : c.learnMode = true) (hcount : (observations c events).dedup.length ≤ 8192)
    {line : CStr} :
    line ∈ learnedEntries (learnMapAfter c events) order ↔
      ∃ o ∈ observations c events, Kept c events order o ∧ line = o.line := by
  have hline : line ∈ learnedEntries (learnMapAfter c events) order ↔
      ∃ k ∈ BoundedMap.walkKeys order (order.length + 1) 0, ∃ v,
        (learnMapAfter c events).lookup k = some v ∧
          learnedLine k (v.setWidth 32) ((v >>> 32).setWidth 32) = line := by
    simp [learnedEntries, List.mem_filterMap]
  rw [hline]
  constructor
  · rintro ⟨k, hk, v, hv, rfl⟩
    obtain ⟨o, ho, rfl, rfl⟩ := learnMapAfter_sound hlearn hcount hv
    exact ⟨o, ho, ⟨hk, hv⟩, learnedLine_value o⟩
  · rintro ⟨o, -, ⟨hk, hv⟩, rfl⟩
    exact ⟨o.offset, hk, o.value, hv, learnedLine_value o⟩

theorem complete_iff_kept (hlearn : c.learnMode = true) (hcount : (observations c events).dedup.length ≤ 8192) :
    (∀ line, line ∈ learnedEntries (learnMapAfter c events) order ↔ ∃ o ∈ observations c events, line = o.line) ↔
      ∀ o ∈ observations c events, Kept c events order o := by
  constructor
  · intro hall o ho
    obtain ⟨o', -, hkept, hline⟩ := (mem_learnedEntries_iff hlearn hcount).mp ((hall o.line).mpr ⟨o, ho, rfl⟩)
    rwa [line_inj hline]
  · intro hkept line
    rw [mem_learnedEntries_iff hlearn hcount]
    constructor
    · rintro ⟨o, ho, -, hline⟩
      exact ⟨o, ho, hline⟩
    · rintro ⟨o, ho, hline⟩
      exact ⟨o, ho, hkept o ho, hline⟩

/-- One value for an offset is one observation. -/
theorem eq_of_offset_value {o o' : Observation} (hoff : o.offset = o'.offset) (hvalue : o.value = o'.value) : o = o' := by
  refine line_inj ?_
  rw [← learnedLine_value, ← learnedLine_value, hoff, hvalue]

theorem kept_iff (hlearn : c.learnMode = true) (hcount : (observations c events).dedup.length ≤ 8192)
    (horder : order.Perm (learnMapAfter c events).entries.keys) :
    (∀ o ∈ observations c events, Kept c events order o) ↔
      (∀ o ∈ observations c events, ∀ o' ∈ observations c events, o.offset = o'.offset → o = o') ∧
        ∀ o ∈ observations c events, o.offset ≠ 0 := by
  have hnodup : order.Nodup := horder.nodup_iff.mpr (learnMapAfter c events).entries.keys_nodup
  obtain ⟨hwalk, hzero⟩ := mem_walk_iff hnodup
  have hkey : ∀ k, k ∈ order ↔ ((learnMapAfter c events).lookup k).isSome := by
    intro k
    rw [horder.mem_iff]
    exact AList.lookup_isSome.symm
  constructor
  · intro hkept
    constructor
    · intro o ho o' ho' hoff
      have heq := (hkept o ho).2
      rw [hoff, (hkept o' ho').2] at heq
      exact eq_of_offset_value hoff (Option.some.inj heq).symm
    · intro o ho hoff
      have hk := (hkept o ho).1
      rw [hoff] at hk
      exact hzero hk
  · intro ⟨hdistinct, hnonzero⟩ o ho
    have hzero' : (0 : U64) ∉ order := by
      intro hmem
      obtain ⟨v, hv⟩ := Option.isSome_iff_exists.mp ((hkey 0).mp hmem)
      obtain ⟨o', ho', hoff, -⟩ := learnMapAfter_sound hlearn hcount hv
      exact hnonzero o' ho' hoff
    have hheld := learnMapAfter_holds hlearn hcount ho
    obtain ⟨v, hv⟩ := Option.isSome_iff_exists.mp hheld
    obtain ⟨o', ho', hoff, rfl⟩ := learnMapAfter_sound hlearn hcount hv
    rw [hdistinct o' ho' o ho hoff] at hv
    exact ⟨(hwalk hzero' _).mpr ((hkey _).mpr hheld), hv⟩

end file

/-- **Learning is complete, exactly for distinct offsets.** For every run of hooked syscalls in
    learn mode with at most 8192 different observations, and whatever the order in which the map
    yields its keys: the entries of the learned policy file are the lines of what was observed, if
    and only if observations at one offset are the same observation and none is at offset 0. -/
theorem learned_iff_distinct_offsets (c : BpfConfig) (hlearn : c.learnMode = true) (events : List LearnEvent)
    (hcount : (observations c events).dedup.length ≤ 8192) (order : List U64)
    (horder : order.Perm (learnMapAfter c events).entries.keys) :
    (∀ line, line ∈ learnedEntries (learnMapAfter c events) order ↔ ∃ o ∈ observations c events, line = o.line) ↔
      (∀ o ∈ observations c events, ∀ o' ∈ observations c events, o.offset = o'.offset → o = o') ∧
        ∀ o ∈ observations c events, o.offset ≠ 0 := by
  rw [complete_iff_kept hlearn hcount, kept_iff hlearn hcount horder]

def learnConfig : BpfConfig := ⟨false, true, false, false, false⟩

/-- The main binary at 0x400000 and libc at 0x7f0000000000. -/
def learnMaps : BpfMaps :=
  { staticMaps with
    vma := vmaAfter [⟨0x400000, moduleMain, 0x400000⟩, ⟨0x7f0000000000, moduleLibc, 0x7f0000000000⟩] }

def learnAt (site : U64) (syscallNr : U32) : LearnEvent :=
  ⟨learnMaps, { staticThread with rip := some (site + 2) }, syscallNr⟩

/-- The line of an observation is missing from the file that the run leaves. -/
def Unlearned (events : List LearnEvent) (o : Observation) : Prop :=
  o ∈ observations learnConfig events ∧
    o.line ∉ learnedEntries (learnMapAfter learnConfig events) (learnMapAfter learnConfig events).entries.keys

instance (events : List LearnEvent) (o : Observation) : Decidable (Unlearned events o) :=
  inferInstanceAs (Decidable (_ ∧ _))

/-- A site of libc at the offset of one of the main binary, the second number of a site, and a site
    at offset 0. -/
theorem learned_loses :
    Unlearned [learnAt 0x401000 1, learnAt 0x7f0000001000 0] ⟨moduleLibc, 0x1000, 0⟩ ∧
      Unlearned [learnAt 0x401000 1, learnAt 0x401000 0] ⟨moduleMain, 0x1000, 0⟩ ∧
      Unlearned [learnAt 0x400000 1] ⟨moduleMain, 0, 1⟩ := by
  decide +kernel

theorem learned_distinct :
    (observations learnConfig [learnAt 0x401000 1, learnAt 0x7f0000002000 0]).dedup.length ≤ 8192 ∧
      ∀ line, line ∈ learnedEntries (learnMapAfter learnConfig [learnAt 0x401000 1, learnAt 0x7f0000002000 0])
          (learnMapAfter learnConfig [learnAt 0x401000 1, learnAt 0x7f0000002000 0]).entries.keys ↔
        ∃ o ∈ observations learnConfig [learnAt 0x401000 1, learnAt 0x7f0000002000 0], line = o.line := by
  have hobs : observations learnConfig [learnAt 0x401000 1, learnAt 0x7f0000002000 0] =
      [⟨moduleMain, 0x1000, 1⟩, ⟨moduleLibc, 0x2000, 0⟩] := by
    decide +kernel
  have hcount : (observations learnConfig [learnAt 0x401000 1, learnAt 0x7f0000002000 0]).dedup.length ≤ 8192 := by
    rw [hobs]
    decide
  refine ⟨hcount, (learned_iff_distinct_offsets learnConfig rfl [learnAt 0x401000 1, learnAt 0x7f0000002000 0]
    hcount _ (List.Perm.refl _)).mpr ?_⟩
  rw [hobs]
  refine ⟨fun o ho o' ho' hoff => ?_, fun o ho hzero => ?_⟩
  · simp only [List.mem_cons, List.not_mem_nil, or_false] at ho ho'
    rcases ho with rfl | rfl <;> rcases ho' with rfl | rfl
    · rfl
    · exact absurd hoff (by decide)
    · exact absurd hoff (by decide)
    · rfl
  · simp only [List.mem_cons, List.not_mem_nil, or_false] at ho
    rcases ho with rfl | rfl
    · exact absurd hzero (by decide)
    · exact absurd hzero (by decide)

end SentinelStack.Cc
