import SentinelStack.Lib.CText
import SentinelStack.Vmi.PhysicalRead
import Mathlib.Data.List.Pairwise

/- The memslot table (`enumerate_memslots` in `kvmi_setup.c`): the writable RAM
   mappings of the QEMU process, read from its maps file and laid end to end from
   guest-physical address 0 on.

   Main results: `findMemslot_eq` — in such a table every address is in at most one
   slot, so the slot found is the slot that maps it; `findMemslot_none_iff` — the
   slots leave no gap; `enumerateMemslots_apart` — if the mappings of the text are
   disjoint, no two slots share host memory; `enumerateMemslots_wellFormed` — the
   table is well formed whatever the maps file holds, and an address below its end
   is found in one slot. -/
namespace SentinelStack.Vmi
open SentinelStack.Lib

def vmiMaxMemslots : Nat := 256
def minRamMappingSize : U64 := 2 * 1024 * 1024

/-- `%s` of at most `n` characters: white space, then characters up to the next, at least one. -/
def scanWord (n : Nat) (s : CStr) : Option (CStr × CStr) :=
  let s := s.dropWhile isSpace
  let word := (s.takeWhile fun c => ¬ isSpace c).take n
  if word = [] then none else some (word, s.drop word.length)

/-- `%*s`. -/
def skipWord (s : CStr) : Option CStr := (scanWord s.length s).map (·.2)

/-- A line of the maps file, as far as it is used. -/
structure MapsLine where
  start : U64
  stop : U64
  perms : CStr
  path : CStr
  deriving DecidableEq, Repr

/-- `sscanf(line, "%llx-%llx %4s %*s %*s %*s %n")` with at least three fields, and the path behind
    what was consumed: none when the line ends before. -/
def scanMapsLine (line : CStr) : Option MapsLine :=
  match scanHex line with
  | some (start, 0x2D :: rest) =>
    match scanHex rest with
    | some (stop, rest) =>
      match scanWord 4 rest with
      | some (perms, rest) =>
        match ((skipWord rest).bind skipWord).bind skipWord with
        | some rest => some ⟨start, stop, perms, strncpyz 1024 (chomp (rest.dropWhile isSpace))⟩
        | none => some ⟨start, stop, perms, []⟩
      | none => none
    | none => none
  | _ => none

def isCandidateRamMap (perms path : CStr) (span : U64) : Bool :=
  if perms.head? ≠ some 0x72 ∨ perms[1]? ≠ some 0x77 then false
  else if span < minRamMappingSize then false
  else if path = [] then false
  else if Strstr path (ascii "[stack]") ∨ Strstr path (ascii "[heap]") ∨ Strstr path (ascii "[vdso]") ∨
      Strstr path (ascii "[vvar]") ∨ Strstr path (ascii "[vsyscall]") then false
  else Strstr path (ascii "pc.ram") ∨ Strstr path (ascii "memory-backend") ∨ Strstr path (ascii "memfd:") ∨
    Strstr path (ascii "/dev/zero")

/-- The start and the length of the RAM mapping on a line, if it is one. -/
def ramMapping (line : CStr) : Option (U64 × U64) :=
  match scanMapsLine line with
  | none => none
  | some m =>
    if m.stop ≤ m.start then none
    else if isCandidateRamMap m.perms m.path (m.stop - m.start) then some (m.start, m.stop - m.start)
    else none

/-- The loop over the lines left, with the slots found so far and the address of the next. -/
def enumerateLoop : List CStr → (slots : List VmiMemslot) → (nextGpa : U64) → List VmiMemslot
  | [], slots, _ => slots
  | line :: rest, slots, nextGpa =>
    if slots.length < vmiMaxMemslots then
      match ramMapping line with
      | none => enumerateLoop rest slots nextGpa
      | some (start, span) =>
        if BitVec.allOnes 64 - nextGpa < span then slots
        else
          enumerateLoop rest
            (slots ++ [⟨nextGpa, span, start, BitVec.ofNat 32 slots.length, vmiMemslotFRemoteProcess⟩]) (nextGpa + span)
    else slots

/-- `enumerate_memslots`: the session after it. `maps` is the content of the maps file, if it can
    be opened, and `allocated` whether there is memory for the table. -/
def enumerateMemslots (maps : Option (List U8)) (allocated : Bool) (s : VmiSession) : VmiSession :=
  match maps with
  | none => { s with memslots := [] }
  | some text =>
    if s.qemuPid ≤ 0 ∨ ¬ allocated then { s with memslots := [] }
    else { s with memslots := enumerateLoop (fgetsLines 2048 text) [] 0 }

/-! The slots lie end to end. -/

/-- The slots follow each other from `base` on, in the memory of the QEMU process. -/
def EndToEnd : (base : Nat) → List VmiMemslot → Prop
  | _, [] => True
  | base, slot :: rest =>
    slot.guestPhysAddr.toNat = base ∧ base + slot.memorySize.toNat < 2 ^ 64 ∧ slot.flags = vmiMemslotFRemoteProcess ∧
      EndToEnd (base + slot.memorySize.toNat) rest

/-- Where the slots end. -/
def slotsEnd (base : Nat) (slots : List VmiMemslot) : Nat :=
  slots.foldl (fun acc slot => acc + slot.memorySize.toNat) base

theorem EndToEnd.snoc {base : Nat} {slots : List VmiMemslot} {slot : VmiMemslot} (h : EndToEnd base slots)
    (hbase : slot.guestPhysAddr.toNat = slotsEnd base slots)
    (hfit : slotsEnd base slots + slot.memorySize.toNat < 2 ^ 64) (hflags : slot.flags = vmiMemslotFRemoteProcess) :
    EndToEnd base (slots ++ [slot]) := by
  induction slots generalizing base with
  | nil => exact ⟨hbase, hfit, hflags, trivial⟩
  | cons first rest ih =>
    obtain ⟨h1, h2, h3, h4⟩ := h
    exact ⟨h1, h2, h3, ih h4 hbase hfit⟩

theorem slotsEnd_snoc (base : Nat) (slots : List VmiMemslot) (slot : VmiMemslot) :
    slotsEnd base (slots ++ [slot]) = slotsEnd base slots + slot.memorySize.toNat := by
  rw [slotsEnd, List.foldl_append, slotsEnd, List.foldl_cons, List.foldl_nil]

theorem enumerateLoop_endToEnd (lines : List CStr) (slots : List VmiMemslot) (nextGpa : U64)
    (hslots : EndToEnd 0 slots) (hnext : nextGpa.toNat = slotsEnd 0 slots) :
    EndToEnd 0 (enumerateLoop lines slots nextGpa) := by
  induction lines generalizing slots nextGpa with
  | nil => exact hslots
  | cons line rest ih =>
    rw [enumerateLoop]
    split
    next =>
      split
      · exact ih slots nextGpa hslots hnext
      next start span _ =>
        split
        · exact hslots
        next hroom =>
          have hfit : nextGpa.toNat + span.toNat < 2 ^ 64 := by
            have hlt := nextGpa.isLt
            have hle : nextGpa ≤ BitVec.allOnes 64 := by
              rw [BitVec.le_def, BitVec.toNat_allOnes]
              omega
            rw [BitVec.lt_def, BitVec.toNat_sub_of_le hle, BitVec.toNat_allOnes] at hroom
            omega
          apply ih
          · exact hslots.snoc hnext (by rw [← hnext]; exact hfit) rfl
          · rw [slotsEnd_snoc, BitVec.toNat_add, Nat.mod_eq_of_lt hfit, hnext]
    · exact hslots

theorem enumerateMemslots_endToEnd (maps : Option (List U8)) (allocated : Bool) (s : VmiSession) :
    EndToEnd 0 (enumerateMemslots maps allocated s).memslots := by
  unfold enumerateMemslots
  split
  · trivial
  · split
    · trivial
    · exact enumerateLoop_endToEnd _ [] 0 trivial rfl

theorem EndToEnd.mem {base : Nat} {slots : List VmiMemslot} {slot : VmiMemslot} (h : EndToEnd base slots)
    (hmem : slot ∈ slots) : base ≤ slot.guestPhysAddr.toNat ∧ slot.flags = vmiMemslotFRemoteProcess := by
  induction slots generalizing base with
  | nil => exact absurd hmem List.not_mem_nil
  | cons first rest ih =>
    obtain ⟨h1, h2, h3, h4⟩ := h
    rcases List.mem_cons.mp hmem with rfl | hmem
    · exact ⟨le_of_eq h1.symm, h3⟩
    · obtain ⟨hle, hflags⟩ := ih h4 hmem
      exact ⟨by omega, hflags⟩

/-- It is read from the remote process. -/
theorem EndToEnd.remote {base : Nat} {slots : List VmiMemslot} {slot : VmiMemslot} (h : EndToEnd base slots)
    (hmem : slot ∈ slots) : slot.flags &&& vmiMemslotFRemoteProcess ≠ 0 := by
  rw [(h.mem hmem).2]
  decide

/-- The slot that maps an address is the one the scan finds. -/
theorem EndToEnd.find {base : Nat} {slots : List VmiMemslot} {slot : VmiMemslot} {gpa : U64} (h : EndToEnd base slots)
    (hmem : slot ∈ slots) (hmaps : slot.Maps gpa) : slots.find? (fun slot => slot.Maps gpa) = some slot := by
  induction slots generalizing base with
  | nil => exact absurd hmem List.not_mem_nil
  | cons first rest ih =>
    obtain ⟨h1, h2, -, h4⟩ := h
    rcases List.mem_cons.mp hmem with rfl | hmem
    · rw [List.find?_cons, decide_eq_true hmaps]
    · -- the first slot ends where the others begin
      have hfirst : ¬ first.Maps gpa := by
        intro hfirst
        have hend := hfirst.toNat
        have hbase := (h4.mem hmem).1
        have := hmaps.toNat
        omega
      rw [List.find?_cons, decide_eq_false hfirst]
      exact ih h4 hmem

theorem findMemslot_eq {base : Nat} {s : VmiSession} (h : EndToEnd base s.memslots) {slot : VmiMemslot}
    (hmem : slot ∈ s.memslots) {gpa : U64} (hmaps : slot.Maps gpa) :
    findMemslot s gpa = some (slot, gpa - slot.guestPhysAddr) := by
  have hfind := h.find hmem hmaps
  unfold findMemslot
  exact congrArg (Option.map fun slot : VmiMemslot => (slot, gpa - slot.guestPhysAddr)) hfind

/-! The span of the slots. -/

theorem base_le_slotsEnd (base : Nat) (slots : List VmiMemslot) : base ≤ slotsEnd base slots := by
  induction slots generalizing base with
  | nil => exact Nat.le_refl base
  | cons slot rest ih => exact (Nat.le_add_right _ _).trans (ih (base + slot.memorySize.toNat))

theorem EndToEnd.end_lt {base : Nat} {slots : List VmiMemslot} (h : EndToEnd base slots) (hbase : base < 2 ^ 64) :
    slotsEnd base slots < 2 ^ 64 := by
  induction slots generalizing base with
  | nil => exact hbase
  | cons slot rest ih => exact ih h.2.2.2 h.2.1

/-- A slot ends within the span of all. -/
theorem EndToEnd.mem_end {base : Nat} {slots : List VmiMemslot} {slot : VmiMemslot} (h : EndToEnd base slots)
    (hmem : slot ∈ slots) : slot.guestPhysAddr.toNat + slot.memorySize.toNat ≤ slotsEnd base slots := by
  induction slots generalizing base with
  | nil => exact absurd hmem List.not_mem_nil
  | cons first rest ih =>
    obtain ⟨hbase, -, -, hrest⟩ := h
    rcases List.mem_cons.mp hmem with rfl | hmem
    · rw [hbase]
      exact base_le_slotsEnd (base + slot.memorySize.toNat) rest
    · exact ih hrest hmem

/-- Below the end every address is mapped. -/
theorem EndToEnd.exists_maps {base : Nat} {slots : List VmiMemslot} {gpa : U64} (h : EndToEnd base slots)
    (hlo : base ≤ gpa.toNat) (hhi : gpa.toNat < slotsEnd base slots) : ∃ slot ∈ slots, slot.Maps gpa := by
  induction slots generalizing base with
  | nil => exact absurd hhi (Nat.not_lt.mpr hlo)
  | cons first rest ih =>
    obtain ⟨hbase, hfit, -, hrest⟩ := h
    by_cases hfirst : gpa.toNat < base + first.memorySize.toNat
    · refine ⟨first, List.mem_cons_self, BitVec.le_def.mpr (hbase ▸ hlo), BitVec.lt_def.mpr ?_⟩
      rw [BitVec.toNat_add, hbase, Nat.mod_eq_of_lt hfit]
      exact hfirst
    · obtain ⟨slot, hmem, hmaps⟩ := ih hrest (Nat.not_lt.mp hfirst) hhi
      exact ⟨slot, List.mem_cons_of_mem first hmem, hmaps⟩

/-- What the slots do not map is beyond their end. -/
theorem findMemslot_none_iff {s : VmiSession} (hslots : EndToEnd 0 s.memslots) (gpa : U64) :
    findMemslot s gpa = none ↔ slotsEnd 0 s.memslots ≤ gpa.toNat := by
  constructor
  · intro hnone
    by_contra hlt
    obtain ⟨slot, hmem, hmaps⟩ := hslots.exists_maps (Nat.zero_le _) (Nat.not_le.mp hlt)
    rw [findMemslot_eq hslots hmem hmaps] at hnone
    cases hnone
  · intro hge
    cases hfind : findMemslot s gpa with
    | none => rfl
    | some found =>
      obtain ⟨slot, offset⟩ := found
      obtain ⟨hmem, hmaps, -⟩ := findMemslot_some hfind
      have hend := hslots.mem_end hmem
      have hhi := hmaps.toNat.2.1
      omega

/-! Slots in the host. -/

/-- The address ranges of two lines have no address in common. -/
def MapsLine.Disjoint (m m' : MapsLine) : Prop :=
  ∀ a, m.start ≤ a → a < m.stop → m'.start ≤ a → ¬ a < m'.stop

/-- The address ranges of a maps text are pairwise disjoint. -/
def RangesDisjoint (text : List U8) : Prop := ((fgetsLines 2048 text).filterMap scanMapsLine).Pairwise MapsLine.Disjoint

/-- No two slots share host memory. -/
def SlotsApart (slots : List VmiMemslot) : Prop :=
  ∀ slot ∈ slots, ∀ slot' ∈ slots, slot ≠ slot' → ∀ i < slot.memorySize.toNat, ∀ j < slot'.memorySize.toNat,
    slot.userspaceAddr + BitVec.ofNat 64 i ≠ slot'.userspaceAddr + BitVec.ofNat 64 j

/-- The host memory of a slot, as start and length. -/
def VmiMemslot.hostRange (slot : VmiMemslot) : U64 × U64 := (slot.userspaceAddr, slot.memorySize)

/-- No address is in both of two ranges of the host. -/
def HostApart (r r' : U64 × U64) : Prop :=
  ∀ i < r.2.toNat, ∀ j < r'.2.toNat, r.1 + BitVec.ofNat 64 i ≠ r'.1 + BitVec.ofNat 64 j

theorem HostApart.symm {r r' : U64 × U64} (h : HostApart r r') : HostApart r' r :=
  fun j hj i hi heq => h i hi j hj heq.symm

/-- The slots added are RAM mappings of the lines, in order. -/
theorem enumerateLoop_mappings (lines : List CStr) (slots : List VmiMemslot) (nextGpa : U64) :
    ∃ new, enumerateLoop lines slots nextGpa = slots ++ new ∧
      new.map VmiMemslot.hostRange <+: lines.filterMap ramMapping := by
  have hnone : ∀ lines : List CStr, ∃ new, slots = slots ++ new ∧
      new.map VmiMemslot.hostRange <+: lines.filterMap ramMapping :=
    fun lines => ⟨[], (List.append_nil slots).symm, List.nil_prefix⟩
  induction lines generalizing slots nextGpa with
  | nil => exact hnone []
  | cons line rest ih =>
    rw [enumerateLoop]
    split
    next =>
      split
      next hline =>
        rw [List.filterMap_cons_none hline]
        exact ih slots nextGpa hnone
      next start span hline =>
        -- a mapping past the end of the address space ends the enumeration
        split
        · exact hnone _
        · obtain ⟨new, heq, hpre⟩ := ih (slots ++ [⟨nextGpa, span, start, BitVec.ofNat 32 slots.length,
            vmiMemslotFRemoteProcess⟩]) (nextGpa + span) (fun _ => ⟨[], (List.append_nil _).symm, List.nil_prefix⟩)
          refine ⟨_, heq.trans (List.append_assoc ..), ?_⟩
          rw [List.filterMap_cons_some hline]
          exact List.cons_prefix_cons.mpr ⟨rfl, hpre⟩
    next => exact hnone _

/-- A RAM mapping is the address range of its line. -/
theorem ramMapping_range {line : CStr} {r : U64 × U64} (h : ramMapping line = some r) :
    ∃ m, scanMapsLine line = some m ∧ r.1 = m.start ∧ r.2.toNat = m.stop.toNat - m.start.toNat := by
  unfold ramMapping at h
  split at h
  · cases h
  next m hm =>
    split at h
    · cases h
    next hlt =>
      split at h
      · cases h
        exact ⟨m, hm, rfl, BitVec.toNat_sub_of_le (BitVec.le_of_lt (BitVec.not_le.mp hlt))⟩
      · cases h

/-- An address of such a range is between the numbers on the line. -/
theorem mem_range_of_lt {start stop : U64} {i : Nat} (h : i < stop.toNat - start.toNat) :
    start ≤ start + BitVec.ofNat 64 i ∧ start + BitVec.ofNat 64 i < stop := by
  have hstop := stop.isLt
  have haddr : (start + BitVec.ofNat 64 i).toNat = start.toNat + i := toNat_add_ofNat (by omega)
  exact ⟨BitVec.le_def.mpr (by omega), BitVec.lt_def.mpr (by omega)⟩

theorem ramMappings_apart {text : List U8} (h : RangesDisjoint text) :
    ((fgetsLines 2048 text).filterMap ramMapping).Pairwise HostApart := by
  rw [List.pairwise_filterMap]
  refine (List.pairwise_filterMap.mp h).imp ?_
  intro line line' hlines r hr r' hr' i hi j hj heq
  obtain ⟨m, hm, hstart, hsize⟩ := ramMapping_range hr
  obtain ⟨m', hm', hstart', hsize'⟩ := ramMapping_range hr'
  rw [hsize] at hi
  rw [hsize'] at hj
  obtain ⟨hlo, hhi⟩ := mem_range_of_lt hi
  obtain ⟨hlo', hhi'⟩ := mem_range_of_lt hj
  rw [hstart, hstart'] at heq
  -- the common address is between the numbers of both lines
  rw [← heq] at hlo' hhi'
  exact hlines m hm m' hm' _ hlo hhi hlo' hhi'

theorem enumerateMemslots_apart {text : List U8} (h : RangesDisjoint text) (allocated : Bool) (s : VmiSession) :
    SlotsApart (enumerateMemslots (some text) allocated s).memslots := by
  have hpairs : ((enumerateMemslots (some text) allocated s).memslots.map VmiMemslot.hostRange).Pairwise HostApart := by
    unfold enumerateMemslots
    dsimp only
    split
    · exact List.Pairwise.nil
    · obtain ⟨new, heq, hpre⟩ := enumerateLoop_mappings (fgetsLines 2048 text) [] 0
      rw [List.nil_append] at heq
      dsimp only
      rw [heq]
      exact (ramMappings_apart h).sublist hpre.sublist
  intro slot hmem slot' hmem' hne
  have hsymm : Std.Symm fun a b : VmiMemslot => HostApart a.hostRange b.hostRange := ⟨fun _ _ hab => hab.symm⟩
  exact (List.pairwise_map.mp hpairs).forall hmem hmem' hne

/-! The whole table. -/

/-- A memslot table as `find_memslot` relies on it. -/
structure WellFormedSlots (slots : List VmiMemslot) : Prop where
  length_le : slots.length ≤ vmiMaxMemslots
  size_pos : ∀ slot ∈ slots, 0 < slot.memorySize.toNat
  /-- A slot begins at the total size of those before it. -/
  contiguous : ∀ (i : Nat) (slot : VmiMemslot), slots[i]? = some slot →
    slot.guestPhysAddr.toNat = slotsEnd 0 (slots.take i)
  disjoint : slots.Pairwise fun slot slot' => ∀ gpa, ¬ (slot.Maps gpa ∧ slot'.Maps gpa)
  no_wrap : ∀ slot ∈ slots, slot.guestPhysAddr.toNat + slot.memorySize.toNat < 2 ^ 64

theorem EndToEnd.base_of_get {base i : Nat} {slots : List VmiMemslot} {slot : VmiMemslot} (h : EndToEnd base slots)
    (hget : slots[i]? = some slot) : slot.guestPhysAddr.toNat = slotsEnd base (slots.take i) := by
  induction slots generalizing base i with
  | nil => cases hget
  | cons first rest ih =>
    obtain ⟨hbase, -, -, hrest⟩ := h
    cases i with
    | zero =>
      cases hget
      exact hbase
    | succ i => exact ih hrest hget

theorem EndToEnd.disjoint {base : Nat} {slots : List VmiMemslot} (h : EndToEnd base slots) :
    slots.Pairwise fun slot slot' => ∀ gpa, ¬ (slot.Maps gpa ∧ slot'.Maps gpa) := by
  induction slots generalizing base with
  | nil => exact List.Pairwise.nil
  | cons first rest ih =>
    obtain ⟨hbase, -, -, hrest⟩ := h
    refine List.Pairwise.cons ?_ (ih hrest)
    rintro slot hmem gpa ⟨hfirst, hslot⟩
    -- the others begin where the first slot ends
    have hend := hfirst.toNat
    have hbegin := hslot.toNat
    have hafter := (hrest.mem hmem).1
    omega

theorem enumerateLoop_length_le (lines : List CStr) (slots : List VmiMemslot) (nextGpa : U64)
    (h : slots.length ≤ vmiMaxMemslots) : (enumerateLoop lines slots nextGpa).length ≤ vmiMaxMemslots := by
  induction lines generalizing slots nextGpa with
  | nil => exact h
  | cons line rest ih =>
    rw [enumerateLoop]
    split
    next hroom =>
      split
      · exact ih slots nextGpa h
      · split
        · exact h
        · apply ih
          rw [List.length_append]
          exact hroom
    · exact h

theorem ramMapping_size_pos {line : CStr} {r : U64 × U64} (h : ramMapping line = some r) : 0 < r.2.toNat := by
  obtain ⟨m, hm, -, hsize⟩ := ramMapping_range h
  rw [hsize]
  rw [ramMapping, hm] at h
  dsimp only at h
  split at h
  · cases h
  next hlt =>
    rw [BitVec.not_le, BitVec.lt_def] at hlt
    omega

theorem enumerateLoop_size_pos (lines : List CStr) : ∀ slot ∈ enumerateLoop lines [] 0, 0 < slot.memorySize.toNat := by
  obtain ⟨new, heq, hmappings⟩ := enumerateLoop_mappings lines [] 0
  rw [heq, List.nil_append]
  intro slot hmem
  have hrange := hmappings.subset (List.mem_map_of_mem hmem)
  obtain ⟨line, -, hline⟩ := List.mem_filterMap.mp hrange
  exact ramMapping_size_pos hline

theorem enumerateMemslots_slots_wellFormed (maps : Option (List U8)) (allocated : Bool) (s : VmiSession) :
    WellFormedSlots (enumerateMemslots maps allocated s).memslots := by
  have hends := enumerateMemslots_endToEnd maps allocated s
  have hlists : (enumerateMemslots maps allocated s).memslots = [] ∨
      ∃ lines, (enumerateMemslots maps allocated s).memslots = enumerateLoop lines [] 0 := by
    unfold enumerateMemslots
    split
    · exact Or.inl rfl
    next text =>
      split
      · exact Or.inl rfl
      · exact Or.inr ⟨fgetsLines 2048 text, rfl⟩
  refine ⟨?_, ?_, fun i slot => hends.base_of_get, hends.disjoint, fun slot hmem => ?_⟩
  · obtain hnil | ⟨lines, hlines⟩ := hlists
    · rw [hnil]; exact Nat.zero_le _
    · rw [hlines]; exact enumerateLoop_length_le lines [] 0 (Nat.zero_le _)
  · obtain hnil | ⟨lines, hlines⟩ := hlists
    · rw [hnil]; exact fun slot hmem => absurd hmem List.not_mem_nil
    · rw [hlines]; exact enumerateLoop_size_pos lines
  · exact (hends.mem_end hmem).trans_lt (hends.end_lt (Nat.two_pow_pos 64))

/-- **The memslot table is well formed.** For every content of the maps file the table has at
    most `VMI_MAX_MEMSLOTS` slots, none empty, end to end from 0, disjoint and below `2 ^ 64`;
    an address is found exactly if it is below their total size, in the only slot that maps it. -/
theorem enumerateMemslots_wellFormed (maps : Option (List U8)) (allocated : Bool) (s : VmiSession) :
    WellFormedSlots (enumerateMemslots maps allocated s).memslots ∧
    ∀ gpa : U64,
      ((findMemslot (enumerateMemslots maps allocated s) gpa).isSome ↔
        gpa.toNat < slotsEnd 0 (enumerateMemslots maps allocated s).memslots) ∧
      ∀ slot offset, findMemslot (enumerateMemslots maps allocated s) gpa = some (slot, offset) →
        slot ∈ (enumerateMemslots maps allocated s).memslots ∧ slot.Maps gpa ∧
        ∀ slot' ∈ (enumerateMemslots maps allocated s).memslots, slot'.Maps gpa → slot' = slot := by
  have hends := enumerateMemslots_endToEnd maps allocated s
  refine ⟨enumerateMemslots_slots_wellFormed maps allocated s, fun gpa => ⟨?_, ?_⟩⟩
  · rw [← Nat.not_le, ← findMemslot_none_iff hends gpa, Option.isSome_iff_ne_none]
  · intro slot offset hfind
    obtain ⟨hmem, hmaps, -⟩ := findMemslot_some hfind
    refine ⟨hmem, hmaps, fun slot' hmem' hmaps' => ?_⟩
    -- the scan finds whichever slot maps the address
    have hfind' := findMemslot_eq hends hmem' hmaps'
    rw [hfind, Option.some.injEq, Prod.mk.injEq] at hfind'
    exact hfind'.1.symm

theorem qemuPid_pos {maps : Option (List U8)} {allocated : Bool} {s : VmiSession}
    (h : (enumerateMemslots maps allocated s).memslots ≠ []) : 0 < (enumerateMemslots maps allocated s).qemuPid := by
  unfold enumerateMemslots at h ⊢
  split at h
  · exact absurd rfl h
  · split at h
    · exact absurd rfl h
    next hpid =>
      rw [if_neg hpid]
      exact Int.not_le.mp (not_or.mp hpid).1

end SentinelStack.Vmi
