import SentinelStack.Cc.ProcMaps
import SentinelStack.Lib.Run

/- How the loader fills `vma_map` (`loader.c`): the main binary, libc, the
   dynamic linker, the libraries found at start and those found by later scans,
   in this order. A module is given the 1 MB blocks of the hull of the lines
   that mention it; later blocks overwrite earlier ones.

   What the environment decides is a parameter: the text each `fopen` of the
   maps file returns and the outcomes of creating and registering policy maps.
   A run is the list of block entries it stores (`VmaWrite`), so that every
   state of the map on the way is the one after a part of the list. A block loop
   whose end is in the last block of the address space never ends; the run then
   goes no further (`halted`), as after an error exit.

   Main result: `singleBase_loaderRun` — over the whole run, all the entries of
   one module id carry one base. -/
namespace SentinelStack.Cc
open SentinelStack.Lib

/-- An entry the loader stores, for the block at `addr`. -/
structure VmaWrite where
  addr : U64
  moduleId : U32
  baseAddr : U64
  deriving DecidableEq, Repr

def VmaWrite.value (w : VmaWrite) : VmaValue := ⟨w.moduleId, w.baseAddr⟩

/-- `bpf_map_update_elem` on `vma_map`: a full map keeps what it has. -/
def storeBlock (m : VmaMap) (w : VmaWrite) : VmaMap := (vmaUpdate m w.addr w.value).getD m

/-- The map after these entries were stored, in order. -/
def vmaAfter (ws : List VmaWrite) : VmaMap := run storeBlock .empty ws

/-! One module. -/

/-- `min_addr` and `max_addr` after the lines with these ranges. -/
def hullOf (ranges : List (U64 × U64)) : U64 × U64 :=
  ranges.foldl (fun h r => (if r.1 < h.1 then r.1 else h.1, if r.2 > h.2 then r.2 else h.2)) (BitVec.allOnes 64, 0)

def matchingRanges (lines : List CStr) (needle : CStr) : List (U64 × U64) :=
  lines.filterMap fun line => if Strstr line needle then lineRange line else none

/-- What a population stores, the base it sets, and whether its block loop ended. -/
structure Populated where
  writes : List VmaWrite
  base : Option U64
  finished : Bool

/-- The block loop over `[lo, hi)`. -/
def blockWrites (fuel : Nat) (lo hi : U64) (moduleId : U32) (baseAddr : U64) : Populated :=
  let blocks := stepLoop vmaBlockSize fuel (alignDown vmaBlockShift lo) hi
  ⟨blocks.1.map (⟨·, moduleId, baseAddr⟩), some baseAddr, blocks.2⟩

def populateVmaForModule (fuel : Nat) (maps : MapsText) (moduleName : CStr) (moduleId : U32) : Populated :=
  let h := hullOf (matchingRanges (mapsLines 512 maps) moduleName)
  if h.1 = BitVec.allOnes 64 then ⟨[], none, true⟩ else blockWrites fuel h.1 h.2 moduleId h.1

/-- The ranges of the linker's lines. The result of `sscanf` is not checked here: where it
    assigned nothing the variables hold what they held (`junk`). -/
def ldRanges (lines : List CStr) (junk : Nat → U64 × U64) : List (U64 × U64) :=
  lines.zipIdx.filterMap fun (line, i) =>
    if isLdLine line then
      some ((sscanfRange line).1.getD (junk i).1, (sscanfRange line).2.getD (junk i).2)
    else none

/-- The linker's blocks, as libc's and relative to libc's base. -/
def ldBlocks (fuel : Nat) (maps : MapsText) (junk : Nat → U64 × U64) (libcBase : U64) : Populated :=
  let h := hullOf (ldRanges (mapsLines 512 maps) junk)
  if h.1 = BitVec.allOnes 64 then ⟨[], none, true⟩ else blockWrites fuel h.1 h.2 moduleLibc libcBase

/-! The loader's run. -/

def maxDiscoveredLibs : Nat := 32
def maxWatchedLibs : Nat := 64
def maxModules : U32 := 64

structure LoaderState where
  writes : List VmaWrite
  libcBase : U64
  watched : List (CStr × U32)
  nextModId : U32
  halted : Bool

def LoaderState.add (st : LoaderState) (p : Populated) : LoaderState :=
  { st with writes := st.writes ++ p.writes, halted := !p.finished }

/-- The outcomes for one library: its policy map's creation and registration, and the maps
    file its population reads. -/
structure LibEnv where
  created : Bool
  registered : Bool
  maps : MapsText

/-- The outcomes of a start. `mainPolicyOk` is the creation and registration of the main map. -/
structure LoaderEnv where
  fuel : Nat
  binName : CStr
  mainRealpath : Option CStr
  pollMaps : MapsText
  mainMaps : MapsText
  libcMaps : MapsText
  mainPolicyOk : Bool
  surfaceReport : Bool
  libcPolicyCreated : Bool
  libcPolicyRegistered : Bool
  libcPathMaps : MapsText
  ldBaseMaps : MapsText
  ldPathMaps : MapsText
  ldMaps : MapsText
  junk : Nat → U64 × U64
  discoverMaps : MapsText
  libs : Nat → LibEnv

def registerWatchedLib (st : LoaderState) (path : CStr) (moduleId : U32) : LoaderState :=
  if st.watched.length ≥ maxWatchedLibs then st else { st with watched := st.watched ++ [(path, moduleId)] }

/-- The body both library loops share: policy map, registration, blocks, watch list. -/
def addLibrary (fuel : Nat) (lib : LibEnv) (path : CStr) (st : LoaderState) : LoaderState :=
  if ¬ lib.created then st
  else if ¬ lib.registered then st
  else
    let st := st.add (populateVmaForModule fuel lib.maps (shortName path) st.nextModId)
    if st.halted then st
    else { registerWatchedLib st path st.nextModId with nextModId := st.nextModId + 1 }

/-- A line of an `r-xp` or `r--p` mapping of a file that is not handled already. -/
def libraryPath (binName : CStr) (line : CStr) : Option CStr :=
  if ¬ (Strstr line (ascii "r-xp") ∨ Strstr line (ascii "r--p")) then none
  else
    (linePath line).filter fun path =>
      ¬ Strstr path binName ∧ ¬ isLibcLine path ∧ ¬ isLdLine path ∧ Strstr path (ascii ".so")

/-- The data files the discovery at start skips. -/
def isDataFile (path : CStr) : Prop :=
  Strstr path (ascii "ld.so.cache") ∨ Strstr path (ascii "ld.so.conf") ∨ Strstr path (ascii ".cache") ∨
    Strstr path (ascii "locale-archive") ∨ Strstr path (ascii "gconv-modules")

/-- The data files a later scan skips. -/
def isScanDataFile (path : CStr) : Prop :=
  Strstr path (ascii "ld.so.cache") ∨ Strstr path (ascii "locale-archive") ∨ Strstr path (ascii "gconv-modules")

instance (path : CStr) : Decidable (isDataFile path) := inferInstanceAs (Decidable (_ ∨ _))
instance (path : CStr) : Decidable (isScanDataFile path) := inferInstanceAs (Decidable (_ ∨ _))

/-- `seen_libs`: the paths of the first 32 different libraries. -/
def seenLibs (binName : CStr) : (lines : List CStr) → (seen : List CStr) → List CStr
  | [], seen => seen
  | line :: rest, seen =>
    if seen.length ≥ maxDiscoveredLibs then seen
    else
      match (libraryPath binName line).filter fun path => ¬ isDataFile path with
      | none => seenLibs binName rest seen
      | some path => seenLibs binName rest (if path ∈ seen then seen else seen ++ [path])

/-- The registration loop of the discovery, from the `i`-th library on. -/
def registerLibs (fuel : Nat) (libs : Nat → LibEnv) : (paths : List CStr) → (i : Nat) → LoaderState → LoaderState
  | [], _, st => st
  | path :: rest, i, st =>
    if st.halted ∨ ¬ st.nextModId < maxModules then st
    else registerLibs fuel libs rest (i + 1) (addLibrary fuel (libs i) path st)

def populateMain (env : LoaderEnv) : LoaderState :=
  let st : LoaderState :=
    { writes := [], libcBase := getLibcBase env.pollMaps, watched := [], nextModId := moduleDynamicBase, halted := false }
  st.add (populateVmaForModule env.fuel env.mainMaps env.binName moduleMain)

def populateLibc (env : LoaderEnv) (st : LoaderState) : LoaderState :=
  if st.halted ∨ st.libcBase = 0 then st
  else
    let p := populateVmaForModule env.fuel env.libcMaps (ascii "libc") moduleLibc
    { st.add p with libcBase := p.base.getD st.libcBase }

/-- The start stops here: an error exit, or the report mode. -/
def exitsEarly (env : LoaderEnv) (st : LoaderState) : Prop :=
  ¬ env.mainPolicyOk ∨ env.surfaceReport ∨ (st.libcBase ≠ 0 ∧ env.libcPolicyCreated ∧ ¬ env.libcPolicyRegistered)

instance (env : LoaderEnv) (st : LoaderState) : Decidable (exitsEarly env st) := inferInstanceAs (Decidable (_ ∨ _))

/-- `ld_base`, from the first line of the linker. -/
def getLdBase (maps : MapsText) : U64 :=
  match (mapsLines 512 maps).find? fun line => isLdLine line with
  | none => 0
  | some line => (sscanfAddr line).getD 0

def populateLd (env : LoaderEnv) (st : LoaderState) : LoaderState :=
  if st.halted ∨ st.libcBase = 0 ∨ ¬ env.libcPolicyCreated ∨ findLibcPath env.libcPathMaps = none then st
  else if getLdBase env.ldBaseMaps ≠ 0 ∧ findModulePath env.ldPathMaps (ascii "ld-linux") ≠ none then
    st.add (ldBlocks env.fuel env.ldMaps env.junk st.libcBase)
  else st

/-- The ids for later scans start after the watched libraries, and the main binary is
    watched from here on. -/
def handOver (env : LoaderEnv) (st : LoaderState) : LoaderState :=
  if st.halted then st
  else
    let st := { st with nextModId := moduleDynamicBase + BitVec.ofNat 32 st.watched.length }
    match env.mainRealpath with
    | none => st
    | some path => registerWatchedLib st path moduleMain

def discoverLibs (env : LoaderEnv) (st : LoaderState) : LoaderState :=
  registerLibs env.fuel env.libs (seenLibs env.binName (mapsLines 512 env.discoverMaps) []) 0 st

/-- The start of the loader, as far as `vma_map` is concerned. -/
def loaderStart (env : LoaderEnv) : LoaderState :=
  let st := populateLibc env (populateMain env)
  if st.halted ∨ exitsEarly env st then { st with halted := true }
  else handOver env (discoverLibs env (populateLd env st))

/-- One `dlopen_scan`: the maps file, and the outcomes for a library met on its `i`-th line. -/
structure ScanEnv where
  maps : MapsText
  libs : Nat → LibEnv

def dlopenScanLoop (env : LoaderEnv) (libs : Nat → LibEnv) : (lines : List CStr) → (i : Nat) → LoaderState → LoaderState
  | [], _, st => st
  | line :: rest, i, st =>
    if st.halted then st
    else
      match (libraryPath env.binName line).filter fun path => ¬ isScanDataFile path with
      | none => dlopenScanLoop env libs rest (i + 1) st
      | some path =>
        if path ∈ st.watched.map (·.1) ∨ st.nextModId ≥ maxModules then dlopenScanLoop env libs rest (i + 1) st
        else dlopenScanLoop env libs rest (i + 1) (addLibrary env.fuel (libs i) path st)

def dlopenScan (env : LoaderEnv) (st : LoaderState) (scan : ScanEnv) : LoaderState :=
  dlopenScanLoop env scan.libs (mapsLines 512 scan.maps) 0 st

/-- The start and the scans after it. -/
def loaderRun (env : LoaderEnv) (scans : List ScanEnv) : LoaderState := run (dlopenScan env) (loaderStart env) scans

/-! One base for each module id. -/

/-- Entries of one module id carry one base. -/
def SingleBase (ws : List VmaWrite) : Prop :=
  ∀ w ∈ ws, ∀ w' ∈ ws, w.moduleId = w'.moduleId → w.baseAddr = w'.baseAddr

theorem SingleBase.append {ws ws' : List VmaWrite} (h : SingleBase ws) (h' : SingleBase ws')
    (hcross : ∀ w ∈ ws, ∀ w' ∈ ws', w.moduleId = w'.moduleId → w.baseAddr = w'.baseAddr) :
    SingleBase (ws ++ ws') := by
  intro w hw w' hw' hid
  cases List.mem_append.mp hw with
  | inl hw =>
    cases List.mem_append.mp hw' with
    | inl hw' => exact h w hw w' hw' hid
    | inr hw' => exact hcross w hw w' hw' hid
  | inr hw =>
    cases List.mem_append.mp hw' with
    | inl hw' => exact (hcross w' hw' w hw hid.symm).symm
    | inr hw' => exact h' w hw w' hw' hid

theorem blockWrites_mem {fuel : Nat} {lo hi : U64} {moduleId : U32} {baseAddr : U64} {w : VmaWrite}
    (h : w ∈ (blockWrites fuel lo hi moduleId baseAddr).writes) : w.moduleId = moduleId ∧ w.baseAddr = baseAddr := by
  obtain ⟨a, _, rfl⟩ := List.mem_map.mp h
  exact ⟨rfl, rfl⟩

/-- A population stores its module's id, with the base it sets. -/
theorem populate_mem {fuel : Nat} {maps : MapsText} {moduleName : CStr} {moduleId : U32} {w : VmaWrite}
    (h : w ∈ (populateVmaForModule fuel maps moduleName moduleId).writes) :
    w.moduleId = moduleId ∧ (populateVmaForModule fuel maps moduleName moduleId).base = some w.baseAddr := by
  unfold populateVmaForModule at h ⊢
  dsimp only at h ⊢
  split at h
  · cases h
  · next hne =>
    rw [if_neg hne]
    obtain ⟨hid, hbase⟩ := blockWrites_mem h
    exact ⟨hid, by rw [hbase]; rfl⟩

theorem populate_single (fuel : Nat) (maps : MapsText) (moduleName : CStr) (moduleId : U32) :
    SingleBase (populateVmaForModule fuel maps moduleName moduleId).writes := by
  intro w hw w' hw' _
  have hbase := (populate_mem hw).2
  rw [(populate_mem hw').2, Option.some.injEq] at hbase
  exact hbase.symm

theorem ldBlocks_mem {fuel : Nat} {maps : MapsText} {junk : Nat → U64 × U64} {libcBase : U64} {w : VmaWrite}
    (h : w ∈ (ldBlocks fuel maps junk libcBase).writes) : w.moduleId = moduleLibc ∧ w.baseAddr = libcBase := by
  unfold ldBlocks at h
  dsimp only at h
  split at h
  · cases h
  · exact blockWrites_mem h

/-- What holds of the loader between its steps: one base for each id, and, unless it stopped,
    no entry of an id that is still to be given out. -/
structure LoaderState.Ok (st : LoaderState) : Prop where
  single : SingleBase st.writes
  below : st.halted = false → ∀ w ∈ st.writes, w.moduleId < st.nextModId

/-- Nothing but the watch list changes. -/
theorem registerWatchedLib_eq (st : LoaderState) (path : CStr) (moduleId : U32) :
    registerWatchedLib st path moduleId = { st with watched := (registerWatchedLib st path moduleId).watched } := by
  unfold registerWatchedLib
  split
  · rfl
  · rfl

theorem registerWatchedLib_ok {st : LoaderState} (h : st.Ok) (path : CStr) (moduleId : U32) :
    (registerWatchedLib st path moduleId).Ok := by
  rw [registerWatchedLib_eq]
  exact ⟨h.single, h.below⟩

/-- **One library.** Without a registered policy map nothing changes. With one its blocks are stored,
    and unless their loop does not end the library is watched and the id taken. -/
theorem addLibrary_cases (fuel : Nat) (lib : LibEnv) (path : CStr) (st : LoaderState) :
    (¬ (lib.created ∧ lib.registered) ∧ addLibrary fuel lib path st = st) ∨
      ((lib.created ∧ lib.registered) ∧
        ((addLibrary fuel lib path st).halted = true ∧
            addLibrary fuel lib path st = st.add (populateVmaForModule fuel lib.maps (shortName path) st.nextModId) ∨
          (populateVmaForModule fuel lib.maps (shortName path) st.nextModId).finished = true ∧
            addLibrary fuel lib path st =
            { registerWatchedLib st path st.nextModId with
              writes := st.writes ++ (populateVmaForModule fuel lib.maps (shortName path) st.nextModId).writes
              nextModId := st.nextModId + 1
              halted := false })) := by
  rw [addLibrary]
  by_cases hcreated : lib.created
  · by_cases hregistered : lib.registered
    · right
      refine ⟨⟨hcreated, hregistered⟩, ?_⟩
      rw [if_neg (not_not.mpr hcreated), if_neg (not_not.mpr hregistered)]
      dsimp only
      split
      next hhalt => exact Or.inl ⟨hhalt, rfl⟩
      next hgo =>
        right
        simp only [LoaderState.add, Bool.not_eq_true] at hgo
        refine ⟨by simpa using hgo, ?_⟩
        by_cases hfull : st.watched.length ≥ maxWatchedLibs
        · simp only [registerWatchedLib, LoaderState.add, hgo, if_pos hfull]
        · simp only [registerWatchedLib, LoaderState.add, hgo, if_neg hfull]
    · left
      rw [if_neg (not_not.mpr hcreated), if_pos hregistered]
      exact ⟨fun h => hregistered h.2, rfl⟩
  · left
    rw [if_pos hcreated]
    exact ⟨fun h => hcreated h.1, rfl⟩

theorem addLibrary_ok {fuel : Nat} {lib : LibEnv} {path : CStr} {st : LoaderState} (h : st.Ok)
    (hrun : st.halted = false) (hnext : st.nextModId < maxModules) : (addLibrary fuel lib path st).Ok := by
  have hsingle : SingleBase (st.writes ++ (populateVmaForModule fuel lib.maps (shortName path) st.nextModId).writes) := by
    apply h.single.append (populate_single _ _ _ _)
    intro w hw w' hw' hid
    have hlt := h.below hrun w hw
    rw [hid, (populate_mem hw').1] at hlt
    exact absurd hlt (BitVec.lt_irrefl _)
  have hbelow : ∀ w ∈ st.writes ++ (populateVmaForModule fuel lib.maps (shortName path) st.nextModId).writes,
      w.moduleId < st.nextModId + 1 := by
    intro w hw
    simp only [maxModules] at hnext
    cases List.mem_append.mp hw with
    | inl hw => have hlt := h.below hrun w hw; bv_omega
    | inr hw => rw [(populate_mem hw).1]; bv_omega
  rcases addLibrary_cases fuel lib path st with ⟨-, hsame⟩ | ⟨-, ⟨hhalt, hstuck⟩ | ⟨-, hadded⟩⟩
  · rw [hsame]
    exact h
  · refine ⟨?_, fun hrun' => absurd hhalt (by rw [hrun']; decide)⟩
    rw [hstuck]
    exact hsingle
  · rw [hadded]
    exact ⟨hsingle, fun _ => hbelow⟩

/-- During the discovery the next id counts the watched libraries. -/
def LoaderState.Counted (st : LoaderState) : Prop :=
  st.nextModId = moduleDynamicBase + BitVec.ofNat 32 st.watched.length ∧ st.watched.length ≤ maxWatchedLibs

theorem addLibrary_counted {fuel : Nat} {lib : LibEnv} {path : CStr} {st : LoaderState} (h : st.Counted)
    (hnext : st.nextModId < maxModules) : (addLibrary fuel lib path st).Counted := by
  obtain ⟨hcount, hle⟩ := h
  have hroom : st.watched.length < maxWatchedLibs := by
    rw [hcount] at hnext
    simp only [moduleDynamicBase, maxModules, maxWatchedLibs] at hnext hle ⊢
    bv_omega
  rcases addLibrary_cases fuel lib path st with ⟨-, hsame⟩ | ⟨-, ⟨-, hstuck⟩ | ⟨-, hadded⟩⟩
  · rw [hsame]
    exact ⟨hcount, hle⟩
  · rw [hstuck]
    exact ⟨hcount, hle⟩
  · rw [hadded, registerWatchedLib, if_neg (Nat.not_le.mpr hroom)]
    refine ⟨?_, ?_⟩
    · show st.nextModId + 1 = moduleDynamicBase + BitVec.ofNat 32 (st.watched ++ [(path, st.nextModId)]).length
      rw [hcount, List.length_append, List.length_singleton, BitVec.ofNat_add]
      exact BitVec.add_assoc ..
    · show (st.watched ++ [(path, st.nextModId)]).length ≤ maxWatchedLibs
      rw [List.length_append, List.length_singleton]
      omega

/-- What a new path keeps while there is room, the collection keeps. -/
theorem seenLibs_inv {P : List CStr → Prop} {binName : CStr}
    (hadd : ∀ seen path, P seen → seen.length < maxDiscoveredLibs → path ∉ seen → P (seen ++ [path]))
    (lines : List CStr) {seen : List CStr} (h : P seen) : P (seenLibs binName lines seen) := by
  induction lines generalizing seen with
  | nil => exact h
  | cons line rest ih =>
    rw [seenLibs]
    split
    · exact h
    next hroom =>
      split
      · exact ih h
      next path _ =>
        split
        · exact ih h
        next hnew => exact ih (hadd seen path h (Nat.lt_of_not_le hroom) hnew)

/-- What a library with an id to take keeps, the discovery keeps. -/
theorem registerLibs_inv {P : LoaderState → Prop} {fuel : Nat} {libs : Nat → LibEnv}
    (hadd : ∀ lib path st, P st → st.halted = false → st.nextModId < maxModules → P (addLibrary fuel lib path st))
    (paths : List CStr) (i : Nat) {st : LoaderState} (h : P st) : P (registerLibs fuel libs paths i st) := by
  induction paths generalizing i st with
  | nil => exact h
  | cons path rest ih =>
    rw [registerLibs]
    split
    · exact h
    · next hgo =>
      obtain ⟨hrun, hnext⟩ := not_or.mp hgo
      exact ih (i + 1) (hadd _ _ _ h (Bool.not_eq_true _ ▸ hrun) (not_not.mp hnext))

/-- The library a line makes a scan try: one that is not watched, while there are ids. -/
def scanTries (env : LoaderEnv) (st : LoaderState) (line : CStr) : Option CStr :=
  ((libraryPath env.binName line).filter fun path => ¬ isScanDataFile path).filter fun path =>
    ¬ (path ∈ st.watched.map (·.1) ∨ st.nextModId ≥ maxModules)

theorem scanTries_some {env : LoaderEnv} {st : LoaderState} {line path : CStr} (h : scanTries env st line = some path) :
    path ∉ st.watched.map (·.1) ∧ st.nextModId < maxModules := by
  obtain ⟨-, hfree⟩ := Option.filter_eq_some_iff.mp h
  obtain ⟨hnew, hnext⟩ := not_or.mp (of_decide_eq_true hfree)
  exact ⟨hnew, BitVec.not_le.mp hnext⟩

/-- A scan takes one line after the other. -/
theorem dlopenScanLoop_cons (env : LoaderEnv) (libs : Nat → LibEnv) (line : CStr) (rest : List CStr) (i : Nat)
    (st : LoaderState) :
    dlopenScanLoop env libs (line :: rest) i st =
      if st.halted then st
      else dlopenScanLoop env libs rest (i + 1)
        ((scanTries env st line).elim st fun path => addLibrary env.fuel (libs i) path st) := by
  rw [dlopenScanLoop, scanTries]
  split
  · rfl
  · cases (libraryPath env.binName line).filter fun path => ¬ isScanDataFile path with
    | none => rfl
    | some path =>
      rw [Option.filter_some]
      by_cases hskip : path ∈ st.watched.map (·.1) ∨ st.nextModId ≥ maxModules
      · rw [decide_eq_false (not_not_intro hskip)]
        exact if_pos hskip
      · rw [decide_eq_true hskip]
        exact if_neg hskip

/-- And so does a scan. -/
theorem dlopenScanLoop_inv {P : LoaderState → Prop} {env : LoaderEnv} {libs : Nat → LibEnv}
    (hadd : ∀ lib path st, P st → st.halted = false → st.nextModId < maxModules → P (addLibrary env.fuel lib path st))
    (lines : List CStr) (i : Nat) {st : LoaderState} (h : P st) : P (dlopenScanLoop env libs lines i st) := by
  induction lines generalizing i st with
  | nil => exact h
  | cons line rest ih =>
    rw [dlopenScanLoop_cons]
    split
    · exact h
    next hrun =>
      apply ih
      cases htries : scanTries env st line with
      | none => exact h
      | some path => exact hadd _ _ _ h (Bool.not_eq_true _ ▸ hrun) (scanTries_some htries).2

theorem registerLibs_ok {fuel : Nat} {libs : Nat → LibEnv} (paths : List CStr) (i : Nat) {st : LoaderState}
    (h : st.Ok) (hc : st.Counted) :
    (registerLibs fuel libs paths i st).Ok ∧ (registerLibs fuel libs paths i st).Counted := by
  apply registerLibs_inv (P := fun st => st.Ok ∧ st.Counted) _ paths i ⟨h, hc⟩
  rintro lib path st ⟨hok, hcounted⟩ hrun hnext
  exact ⟨addLibrary_ok hok hrun hnext, addLibrary_counted hcounted hnext⟩

theorem handOver_ok {env : LoaderEnv} {st : LoaderState} (h : st.Ok) (hc : st.Counted) : (handOver env st).Ok := by
  unfold handOver
  split
  · exact h
  · have hsame : st.nextModId = moduleDynamicBase + BitVec.ofNat 32 st.watched.length := hc.1
    have hbelow := h.below
    rw [hsame] at hbelow
    have hok : LoaderState.Ok { st with nextModId := moduleDynamicBase + BitVec.ofNat 32 st.watched.length } :=
      ⟨h.single, hbelow⟩
    split
    · exact hok
    · exact registerWatchedLib_ok hok _ _

/-- After libc's population the entries are main's and libc's, and libc's have its base. -/
theorem populateLibc_spec (env : LoaderEnv) {w : VmaWrite} (h : w ∈ (populateLibc env (populateMain env)).writes) :
    w.moduleId = moduleMain ∨ (w.moduleId = moduleLibc ∧ w.baseAddr = (populateLibc env (populateMain env)).libcBase) := by
  unfold populateLibc at h ⊢
  split at h
  · exact Or.inl (populate_mem h).1
  · next hgo =>
    rw [if_neg hgo]
    cases List.mem_append.mp h with
    | inl h => exact Or.inl (populate_mem h).1
    | inr h =>
      obtain ⟨hid, hbase⟩ := populate_mem h
      refine Or.inr ⟨hid, ?_⟩
      show w.baseAddr = (populateVmaForModule env.fuel env.libcMaps (ascii "libc") moduleLibc).base.getD _
      rw [hbase]
      rfl

theorem populateLibc_single (env : LoaderEnv) : SingleBase (populateLibc env (populateMain env)).writes := by
  have hmain : SingleBase (populateMain env).writes := populate_single _ _ _ _
  unfold populateLibc
  split
  · exact hmain
  · apply hmain.append (populate_single _ _ _ _)
    intro w hw w' hw' hid
    have hw : w ∈ (populateVmaForModule env.fuel env.mainMaps env.binName moduleMain).writes := hw
    rw [(populate_mem hw).1, (populate_mem hw').1] at hid
    exact absurd hid (by decide)

theorem populateLibc_nextModId (env : LoaderEnv) :
    (populateLibc env (populateMain env)).nextModId = moduleDynamicBase ∧
      (populateLibc env (populateMain env)).watched = [] := by
  unfold populateLibc
  split
  · exact ⟨rfl, rfl⟩
  · exact ⟨rfl, rfl⟩

/-- The linker takes no module id and is not watched. -/
theorem populateLd_frame (env : LoaderEnv) (st : LoaderState) :
    (populateLd env st).nextModId = st.nextModId ∧ (populateLd env st).watched = st.watched := by
  unfold populateLd
  split
  · exact ⟨rfl, rfl⟩
  split
  · exact ⟨rfl, rfl⟩
  · exact ⟨rfl, rfl⟩

theorem populateLd_counted (env : LoaderEnv) : (populateLd env (populateLibc env (populateMain env))).Counted := by
  obtain ⟨hnext, hwatched⟩ := populateLibc_nextModId env
  obtain ⟨hnext', hwatched'⟩ := populateLd_frame env (populateLibc env (populateMain env))
  unfold LoaderState.Counted
  rw [hnext', hwatched', hnext, hwatched]
  decide

theorem populateLd_ok (env : LoaderEnv) : (populateLd env (populateLibc env (populateMain env))).Ok := by
  have hspec := @populateLibc_spec env
  have hsingle := populateLibc_single env
  have hnext := (populateLibc_nextModId env).1
  generalize populateLibc env (populateMain env) = st at hspec hsingle hnext ⊢
  have hbelow : ∀ w ∈ st.writes, w.moduleId < st.nextModId := by
    intro w hw
    rw [hnext]
    cases hspec hw with
    | inl h => rw [h]; decide
    | inr h => rw [h.1]; decide
  unfold populateLd
  split
  · exact ⟨hsingle, fun _ => hbelow⟩
  split
  · refine ⟨?_, fun _ => ?_⟩
    · apply hsingle.append
      · intro w hw w' hw' _
        rw [(ldBlocks_mem hw).2, (ldBlocks_mem hw').2]
      · -- libc's own entries have the base the linker's get
        intro w hw w' hw' hid
        rw [(ldBlocks_mem hw').2]
        cases hspec hw with
        | inl h => rw [h, (ldBlocks_mem hw').1] at hid; exact absurd hid (by decide)
        | inr h => exact h.2
    · intro w hw
      cases List.mem_append.mp hw with
      | inl hw => exact hbelow w hw
      | inr hw =>
        show w.moduleId < st.nextModId
        rw [(ldBlocks_mem hw).1, hnext]
        decide
  · exact ⟨hsingle, fun _ => hbelow⟩

theorem loaderStart_ok (env : LoaderEnv) : (loaderStart env).Ok := by
  unfold loaderStart
  dsimp only
  split
  · exact ⟨populateLibc_single env, fun h => by cases h⟩
  · have hlibs : (discoverLibs env (populateLd env (populateLibc env (populateMain env)))).Ok ∧
        (discoverLibs env (populateLd env (populateLibc env (populateMain env)))).Counted :=
      registerLibs_ok _ _ (populateLd_ok env) (populateLd_counted env)
    exact handOver_ok hlibs.1 hlibs.2

theorem dlopenScanLoop_ok {env : LoaderEnv} {libs : Nat → LibEnv} (lines : List CStr) (i : Nat) {st : LoaderState}
    (h : st.Ok) : (dlopenScanLoop env libs lines i st).Ok :=
  dlopenScanLoop_inv (fun _ _ _ hok hrun hnext => addLibrary_ok hok hrun hnext) lines i h

/-- **One base for each module id.** In every run of the loader, on any maps texts and with
    any outcomes of its map operations, the entries of one module id carry one base. -/
theorem singleBase_loaderRun (env : LoaderEnv) (scans : List ScanEnv) : SingleBase (loaderRun env scans).writes := by
  have h : (loaderRun env scans).Ok :=
    run_inv (fun _ _ h => dlopenScanLoop_ok _ _ h) (loaderStart_ok env) scans
  exact h.single

/-- Every entry of the map was stored by the loader. -/
theorem vmaAfter_mem (ws : List VmaWrite) : ∀ e ∈ (vmaAfter ws).entries, ∃ w ∈ ws, e.value = w.value := by
  induction ws using List.reverseRecOn with
  | nil =>
    intro e he
    cases he
  | append_singleton ws w ih =>
    intro e he
    rw [vmaAfter, run_snoc, storeBlock] at he
    cases hup : vmaUpdate (run storeBlock .empty ws) w.addr w.value with
    | none =>
      rw [hup] at he
      obtain ⟨x, hx, hv⟩ := ih e he
      exact ⟨x, List.mem_append_left _ hx, hv⟩
    | some m =>
      rw [hup] at he
      cases LpmTrie.value_of_mem_update hup he with
      | inl hv => exact ⟨w, by simp, hv⟩
      | inr hv =>
        obtain ⟨y, hy, hyv⟩ := hv
        obtain ⟨x, hx, hxv⟩ := ih y hy
        exact ⟨x, List.mem_append_left _ hx, hyv.symm.trans hxv⟩

end SentinelStack.Cc
