import SentinelStack.Cc.VmaLoader
import SentinelStack.Lib.Writes

/- Which module an address is attributed to, after a start of the loader on one
   text of `/proc/PID/maps`.

   `populatedModules` lists the hulls the start rounds out to 1 MB blocks, in
   the order it stores them. `vmaLookup_loaderStart` says that the trie then
   answers with the last of them whose blocks hold the address. `Attributes` is
   what the lookup is for: every address of a mapping of a file resolves to that
   file. -/
namespace SentinelStack.Cc
open SentinelStack.Lib

/-- A hull `[lo, hi)` that the loader rounds out to blocks, and what it stores there. -/
structure VmaModule where
  lo : U64
  hi : U64
  value : VmaValue
  deriving DecidableEq, Repr

namespace VmaModule

/-- The block of `a` is one of those from `lo`'s on that begin before `hi`. -/
def Covers (m : VmaModule) (a : U64) : Prop :=
  m.lo.toNat / 2 ^ vmaBlockShift ≤ a.toNat / 2 ^ vmaBlockShift ∧
    a.toNat / 2 ^ vmaBlockShift * 2 ^ vmaBlockShift < m.hi.toNat

instance (m : VmaModule) (a : U64) : Decidable (m.Covers a) := inferInstanceAs (Decidable (_ ∧ _))

/-- The addresses of the hull itself are covered. -/
theorem covers_of_mem {m : VmaModule} {a : U64} (hlo : m.lo ≤ a) (hhi : a < m.hi) : m.Covers a := by
  refine ⟨Nat.div_le_div_right hlo, ?_⟩
  calc a.toNat / 2 ^ vmaBlockShift * 2 ^ vmaBlockShift ≤ a.toNat := Nat.div_mul_le_self _ _
    _ < m.hi.toNat := hhi

/-- The entries the block loop stores for the module. -/
def populated (m : VmaModule) : Populated :=
  blockWrites (2 ^ (64 - vmaBlockShift)) m.lo m.hi m.value.moduleId m.value.baseAddr

end VmaModule

/-- The value of the last module whose blocks hold `a`. -/
def lastCovering (mods : List VmaModule) (a : U64) : Option VmaValue :=
  (mods.reverse.find? fun m => m.Covers a).map (·.value)

/-! The trie after a list of modules. -/

/-- The block of an entry, and what it stores there. -/
def VmaWrite.entry (w : VmaWrite) : U64 × VmaValue := (w.addr >>> vmaBlockShift, w.value)

/-- The map takes the entry. -/
def Accepts (m : VmaMap) (w : VmaWrite) : Prop := vmaUpdate m w.addr w.value ≠ none

/-- No update is refused for want of room. -/
def NoneRefused (ws : List VmaWrite) : Prop := Along storeBlock Accepts .empty ws

theorem storeBlock_uniform {m : VmaMap} (h : m.Uniform vmaBlockPrefix) (w : VmaWrite) :
    (storeBlock m w).Uniform vmaBlockPrefix := h.put (bswap64 w.addr) w.value

theorem vmaAfter_uniform (ws : List VmaWrite) : (vmaAfter ws).Uniform vmaBlockPrefix :=
  run_inv (I := LpmTrie.Uniform vmaBlockPrefix) (fun _ w h => storeBlock_uniform h w) (LpmTrie.uniform_empty _) ws

/-- With room for every entry, a lookup finds the last entry stored for its block. -/
theorem vmaLookup_vmaAfter {ws : List VmaWrite} (h : NoneRefused ws) (a : U64) :
    vmaLookup (vmaAfter ws) a = lastFor (a >>> vmaBlockShift) (ws.map VmaWrite.entry) := by
  induction ws using List.reverseRecOn with
  | nil => rfl
  | append_singleton ws w ih =>
    obtain ⟨hpre, hlast⟩ := Along.append.mp h
    have hacc : vmaUpdate (vmaAfter ws) w.addr w.value ≠ none := hlast.1
    obtain ⟨m, hm⟩ := Option.ne_none_iff_exists'.mp hacc
    have hafter : vmaAfter (ws ++ [w]) = m := by
      have : vmaUpdate (run storeBlock .empty ws) w.addr w.value = some m := hm
      rw [vmaAfter, run_snoc, storeBlock, this]
      rfl
    rw [hafter, vmaLookup_update (vmaAfter_uniform ws) hm, List.map_append, lastFor_append, ih hpre]
    simp only [List.map_cons, List.map_nil, lastFor_cons, lastFor_nil, Option.none_or, VmaWrite.entry]
    split
    · rfl
    · rw [Option.none_or]

theorem shift_eq_iff_div {a b : U64} (k : Nat) : a >>> k = b >>> k ↔ a.toNat / 2 ^ k = b.toNat / 2 ^ k := by
  rw [← BitVec.toNat_inj, BitVec.toNat_ushiftRight, BitVec.toNat_ushiftRight, Nat.shiftRight_eq_div_pow,
    Nat.shiftRight_eq_div_pow]

/-- The blocks a population that ends goes through. -/
theorem hullBlocks_iff {fuel : Nat} {lo hi : U64}
    (hfin : (stepLoop vmaBlockSize fuel (alignDown vmaBlockShift lo) hi).2 = true) (a : U64) :
    (∃ b ∈ (stepLoop vmaBlockSize fuel (alignDown vmaBlockShift lo) hi).1,
        b.toNat / 2 ^ vmaBlockShift = a.toNat / 2 ^ vmaBlockShift) ↔
      lo.toNat / 2 ^ vmaBlockShift ≤ a.toNat / 2 ^ vmaBlockShift ∧
        a.toNat / 2 ^ vmaBlockShift * 2 ^ vmaBlockShift < hi.toNat := by
  have halign : (alignDown vmaBlockShift lo).toNat % 2 ^ vmaBlockShift = 0 := by
    rw [toNat_alignDown, Nat.mul_mod_left]
  have hblocks := stepLoop_block_iff (k := vmaBlockShift) (by decide) _ halign hfin a.toNat
  rwa [toNat_alignDown, Nat.mul_div_cancel _ (Nat.two_pow_pos _)] at hblocks

/-- One module's entries give its value to the addresses it covers. -/
theorem lastFor_populated {m : VmaModule} (hfin : m.populated.finished = true) (a : U64) :
    lastFor (a >>> vmaBlockShift) (m.populated.writes.map VmaWrite.entry) =
      if m.Covers a then some m.value else none := by
  rw [VmaModule.populated, blockWrites, List.map_map]
  refine (lastFor_map_const (a >>> vmaBlockShift) (fun b : U64 => b >>> vmaBlockShift) m.value _).trans ?_
  simp only [shift_eq_iff_div]
  exact if_congr (hullBlocks_iff hfin a) rfl rfl

theorem lastFor_modules {mods : List VmaModule} (hfin : ∀ m ∈ mods, m.populated.finished = true) (a : U64) :
    lastFor (a >>> vmaBlockShift) ((mods.flatMap (·.populated.writes)).map VmaWrite.entry) = lastCovering mods a := by
  induction mods using List.reverseRecOn with
  | nil => rfl
  | append_singleton mods m ih =>
    have hm := lastFor_populated (hfin m (by simp)) a
    have hrest := ih fun x hx => hfin x (by simp [hx])
    rw [List.flatMap_append, List.map_append, lastFor_append, hrest, List.flatMap_singleton, hm]
    unfold lastCovering
    rw [List.reverse_append, List.reverse_singleton, List.singleton_append, List.find?_cons]
    by_cases hc : m.Covers a
    · simp [hc]
    · simp [hc]

/-! The modules a start populates. -/

/-- The module of these ranges, if there are any. -/
def moduleOf (ranges : List (U64 × U64)) (value : U64 → VmaValue) : List VmaModule :=
  let h := hullOf ranges
  if h.1 = BitVec.allOnes 64 then [] else [⟨h.1, h.2, value h.1⟩]

/-- A start on one text, with every map operation succeeding. -/
def steadyEnv (text : List U8) (mainPath : CStr) (junk : Nat → U64 × U64) : LoaderEnv where
  fuel := 2 ^ (64 - vmaBlockShift)
  binName := shortName mainPath
  mainRealpath := some mainPath
  pollMaps := some text
  mainMaps := some text
  libcMaps := some text
  mainPolicyOk := true
  surfaceReport := false
  libcPolicyCreated := true
  libcPolicyRegistered := true
  libcPathMaps := some text
  ldBaseMaps := some text
  ldPathMaps := some text
  ldMaps := some text
  junk := junk
  discoverMaps := some text
  libs := fun _ => ⟨true, true, some text⟩

section modules
variable (text : List U8) (mainPath : CStr) (junk : Nat → U64 × U64)

def libcRanges : List (U64 × U64) := matchingRanges (fgetsLines 512 text) (ascii "libc")

/-- `libc_base` after libc's population. -/
def libcBaseOf : U64 :=
  if getLibcBase (some text) = 0 then 0
  else if (hullOf (libcRanges text)).1 = BitVec.allOnes 64 then getLibcBase (some text)
  else (hullOf (libcRanges text)).1

/-- The start stores blocks for the dynamic linker. -/
def LdPopulated : Prop :=
  libcBaseOf text ≠ 0 ∧ findLibcPath (some text) ≠ none ∧ getLdBase (some text) ≠ 0 ∧
    findModulePath (some text) (ascii "ld-linux") ≠ none

instance : Decidable (LdPopulated text) := inferInstanceAs (Decidable (_ ∧ _))

/-- The libraries found at start. -/
def libraries : List CStr := seenLibs (shortName mainPath) (fgetsLines 512 text) []

def libModule (p : CStr × Nat) : List VmaModule :=
  moduleOf (matchingRanges (fgetsLines 512 text) (shortName p.1)) (VmaValue.mk (moduleDynamicBase + BitVec.ofNat 32 p.2))

def mainModule : List VmaModule :=
  moduleOf (matchingRanges (fgetsLines 512 text) (shortName mainPath)) (VmaValue.mk moduleMain)

def libcModule : List VmaModule :=
  if getLibcBase (some text) = 0 then [] else moduleOf (libcRanges text) (VmaValue.mk moduleLibc)

def ldModule : List VmaModule :=
  if LdPopulated text then moduleOf (ldRanges (fgetsLines 512 text) junk) (fun _ => ⟨moduleLibc, libcBaseOf text⟩) else []

/-- The hulls in the order they are stored: the main binary, libc, the linker, the libraries. -/
def populatedModules : List VmaModule :=
  mainModule text mainPath ++ libcModule text ++ ldModule text junk ++
    (libraries text mainPath).zipIdx.flatMap (libModule text)

end modules

/-- Unless the loader stopped, it has stored the blocks of these modules. -/
def LoaderState.HasStored (st : LoaderState) (mods : List VmaModule) : Prop :=
  st.halted = false → st.writes = mods.flatMap (·.populated.writes) ∧ ∀ m ∈ mods, m.populated.finished = true

/-- A population that stores a module, or nothing. -/
def Populated.IsOf (p : Populated) (mods : List VmaModule) : Prop :=
  p.writes = mods.flatMap (·.populated.writes) ∧ (p.finished = true → ∀ m ∈ mods, m.populated.finished = true)

theorem LoaderState.HasStored.add {st : LoaderState} {mods mods' : List VmaModule} {p : Populated}
    (h : st.HasStored mods) (hrun : st.halted = false) (hp : p.IsOf mods') : (st.add p).HasStored (mods ++ mods') := by
  intro hgo
  have hfin : p.finished = true := by simpa [LoaderState.add] using hgo
  obtain ⟨hw, hf⟩ := h hrun
  refine ⟨?_, ?_⟩
  · show st.writes ++ p.writes = _
    rw [hw, hp.1, List.flatMap_append]
  · intro m hm
    cases List.mem_append.mp hm with
    | inl hm => exact hf m hm
    | inr hm => exact hp.2 hfin m hm

/-- The hull of some ranges, rounded out, is the module of the ranges. -/
theorem isOf_moduleOf (ranges : List (U64 × U64)) (value : U64 → VmaValue) :
    Populated.IsOf
      (if (hullOf ranges).1 = BitVec.allOnes 64 then ⟨[], none, true⟩
      else blockWrites (2 ^ (64 - vmaBlockShift)) (hullOf ranges).1 (hullOf ranges).2
        (value (hullOf ranges).1).moduleId (value (hullOf ranges).1).baseAddr)
      (moduleOf ranges value) := by
  unfold moduleOf Populated.IsOf
  dsimp only
  split
  · exact ⟨rfl, fun _ m hm => by cases hm⟩
  · refine ⟨by simp [VmaModule.populated], fun hfin m hm => ?_⟩
    rw [List.mem_singleton] at hm
    subst hm
    exact hfin

theorem populate_isOf (text : List U8) (name : CStr) (moduleId : U32) :
    (populateVmaForModule (2 ^ (64 - vmaBlockShift)) (some text) name moduleId).IsOf
      (moduleOf (matchingRanges (fgetsLines 512 text) name) (VmaValue.mk moduleId)) :=
  isOf_moduleOf (matchingRanges (fgetsLines 512 text) name) (VmaValue.mk moduleId)

theorem ldBlocks_isOf (text : List U8) (junk : Nat → U64 × U64) (libcBase : U64) :
    (ldBlocks (2 ^ (64 - vmaBlockShift)) (some text) junk libcBase).IsOf
      (moduleOf (ldRanges (fgetsLines 512 text) junk) (fun _ => ⟨moduleLibc, libcBase⟩)) :=
  isOf_moduleOf (ldRanges (fgetsLines 512 text) junk) (fun _ => ⟨moduleLibc, libcBase⟩)

theorem seenLibs_length (binName : CStr) (lines seen : List CStr) (h : seen.length ≤ maxDiscoveredLibs) :
    (seenLibs binName lines seen).length ≤ maxDiscoveredLibs := by
  apply seenLibs_inv (P := fun seen => seen.length ≤ maxDiscoveredLibs) _ lines h
  intro seen path _ hroom _
  rw [List.length_append, List.length_singleton]
  omega

section start
variable (text : List U8) (mainPath : CStr) (junk : Nat → U64 × U64)

theorem populateMain_stored : (populateMain (steadyEnv text mainPath junk)).HasStored (mainModule text mainPath) := by
  have hempty : ∀ st : LoaderState, st.writes = [] → st.HasStored [] := by
    intro st hw _
    exact ⟨hw, fun m hm => by cases hm⟩
  have hadd := (hempty ⟨[], getLibcBase (some text), [], moduleDynamicBase, false⟩ rfl).add rfl
    (populate_isOf text (shortName mainPath) moduleMain)
  exact hadd

theorem populateLibc_stored :
    (populateLibc (steadyEnv text mainPath junk) (populateMain (steadyEnv text mainPath junk))).HasStored
      (mainModule text mainPath ++ libcModule text) := by
  have hmain := populateMain_stored text mainPath junk
  have hbase : (populateMain (steadyEnv text mainPath junk)).libcBase = getLibcBase (some text) := rfl
  generalize populateMain (steadyEnv text mainPath junk) = st at hmain hbase ⊢
  unfold populateLibc libcModule
  rw [hbase]
  split
  · next hskip =>
    intro hgo
    cases hskip with
    | inl hhalt => rw [hhalt] at hgo; cases hgo
    | inr hzero => rw [if_pos hzero, List.append_nil]; exact hmain hgo
  · next hgo =>
    obtain ⟨hrun, hne⟩ := not_or.mp hgo
    rw [if_neg hne]
    exact hmain.add (by simpa using hrun) (populate_isOf text (ascii "libc") moduleLibc)

/-- libc's population follows the main binary's, so the base is set once that has ended. -/
theorem populateLibc_libcBase (hmain : (populateMain (steadyEnv text mainPath junk)).halted = false) :
    (populateLibc (steadyEnv text mainPath junk) (populateMain (steadyEnv text mainPath junk))).libcBase =
      libcBaseOf text := by
  have hbase : (populateMain (steadyEnv text mainPath junk)).libcBase = getLibcBase (some text) := rfl
  generalize populateMain (steadyEnv text mainPath junk) = st at hbase hmain ⊢
  unfold populateLibc libcBaseOf
  rw [hbase, hmain]
  by_cases hzero : getLibcBase (some text) = 0
  · rw [if_pos (Or.inr hzero), if_pos hzero, hbase, hzero]
  · rw [if_neg (not_or.mpr ⟨Bool.false_ne_true, hzero⟩), if_neg hzero]
    show (populateVmaForModule _ (some text) (ascii "libc") moduleLibc).base.getD (getLibcBase (some text)) = _
    unfold populateVmaForModule
    dsimp only
    show Option.getD (Populated.base (if (hullOf (libcRanges text)).1 = BitVec.allOnes 64 then _ else _)) _ = _
    split
    · rfl
    · rfl

theorem populateMain_halted_of_libc {env : LoaderEnv}
    (hgo : (populateLibc env (populateMain env)).halted = false) : (populateMain env).halted = false := by
  cases hhalt : (populateMain env).halted with
  | false => rfl
  | true =>
    rw [populateLibc, if_pos (Or.inl hhalt), hhalt] at hgo
    cases hgo

theorem populateLd_stored {st : LoaderState} {mods : List VmaModule} (h : st.HasStored mods)
    (hbase : st.halted = false → st.libcBase = libcBaseOf text) :
    (populateLd (steadyEnv text mainPath junk) st).HasStored (mods ++ ldModule text junk) := by
  intro hgo
  have hrun : st.halted = false := by
    cases hh : st.halted with
    | false => rfl
    | true =>
      rw [populateLd, if_pos (Or.inl hh), hh] at hgo
      cases hgo
  rw [ldModule]
  unfold populateLd at hgo ⊢
  rw [hbase hrun] at hgo ⊢
  split at hgo
  · next hskip =>
    have hno : ¬ LdPopulated text := by
      intro hld
      obtain ⟨hb, hpath, _⟩ := hld
      rcases hskip with hs | hs | hs | hs
      · rw [hrun] at hs; cases hs
      · exact hb hs
      · exact hs rfl
      · exact hpath hs
    rw [if_pos hskip, if_neg hno, List.append_nil]
    exact h hrun
  · next hskip =>
    rw [if_neg hskip]
    split at hgo
    · next hfound =>
      have hld : LdPopulated text :=
        ⟨fun hb => hskip (Or.inr (Or.inl hb)), fun hp => hskip (Or.inr (Or.inr (Or.inr hp))), hfound⟩
      rw [if_pos hfound, if_pos hld]
      exact h.add hrun (ldBlocks_isOf text junk (libcBaseOf text)) hgo
    · next hmissing =>
      rw [if_neg hmissing, if_neg (fun hld : LdPopulated text => hmissing hld.2.2), List.append_nil]
      exact h hrun

/-- One library with its maps created stores its module and takes the next id. -/
theorem addLibrary_stored {path : CStr} {i : Nat} {st : LoaderState} {mods : List VmaModule} (h : st.HasStored mods)
    (hrun : st.halted = false) (hid : st.nextModId = moduleDynamicBase + BitVec.ofNat 32 i) :
    (addLibrary (2 ^ (64 - vmaBlockShift)) ⟨true, true, some text⟩ path st).HasStored (mods ++ libModule text (path, i)) ∧
      ((addLibrary (2 ^ (64 - vmaBlockShift)) ⟨true, true, some text⟩ path st).halted = false →
        (addLibrary (2 ^ (64 - vmaBlockShift)) ⟨true, true, some text⟩ path st).nextModId =
          moduleDynamicBase + BitVec.ofNat 32 (i + 1)) := by
  have hadd := h.add hrun (populate_isOf text (shortName path) st.nextModId)
  rw [hid] at hadd
  rcases addLibrary_cases (2 ^ (64 - vmaBlockShift)) ⟨true, true, some text⟩ path st with
    ⟨hfailed, -⟩ | ⟨-, ⟨hhalt, hstuck⟩ | ⟨hfinished, hadded⟩⟩
  · exact absurd ⟨rfl, rfl⟩ hfailed
  · refine ⟨?_, fun hgo => absurd hhalt (by rw [hgo]; decide)⟩
    rw [hstuck, hid]
    exact hadd
  · rw [hid] at hfinished
    have hstored := hadd (by rw [LoaderState.add, hfinished]; rfl)
    rw [hadded]
    refine ⟨?_, fun _ => ?_⟩
    · rw [hid]
      exact fun _ => hstored
    · show st.nextModId + 1 = moduleDynamicBase + BitVec.ofNat 32 (i + 1)
      rw [hid, BitVec.ofNat_add]
      exact BitVec.add_assoc ..

theorem registerLibs_of_halted {fuel : Nat} {libs : Nat → LibEnv} (paths : List CStr) (i : Nat) {st : LoaderState}
    (h : st.halted = true) : registerLibs fuel libs paths i st = st := by
  cases paths with
  | nil => rfl
  | cons path rest => rw [registerLibs, if_pos (Or.inl h)]

/-- The registration loop stores one module after the other, numbered from its start on. -/
theorem registerLibs_stored (paths : List CStr) {i : Nat} {st : LoaderState} {mods : List VmaModule}
    (h : st.HasStored mods) (hid : st.nextModId = moduleDynamicBase + BitVec.ofNat 32 i)
    (hlen : i + paths.length ≤ maxDiscoveredLibs) :
    (registerLibs (2 ^ (64 - vmaBlockShift)) (fun _ => ⟨true, true, some text⟩) paths i st).HasStored
      (mods ++ (paths.zipIdx i).flatMap (libModule text)) := by
  induction paths generalizing i st mods with
  | nil => simpa [registerLibs] using h
  | cons path rest ih =>
    rw [List.length_cons] at hlen
    -- at most 32 libraries are found, so the ids do not run out
    have hnext : st.nextModId < maxModules := by
      rw [hid]
      simp only [maxDiscoveredLibs, maxModules, moduleDynamicBase] at hlen ⊢
      bv_omega
    cases hrun : st.halted with
    | true =>
      intro hgo
      rw [registerLibs_of_halted _ _ hrun, hrun] at hgo
      cases hgo
    | false =>
      rw [registerLibs, if_neg (by simp [hrun, hnext]), List.zipIdx_cons, List.flatMap_cons, ← List.append_assoc]
      obtain ⟨hstored, hcount⟩ := addLibrary_stored text h hrun hid
      cases hdone : (addLibrary (2 ^ (64 - vmaBlockShift)) ⟨true, true, some text⟩ path st).halted with
      | true =>
        -- the population did not end: the loop stops there
        intro hgo
        rw [registerLibs_of_halted _ _ hdone, hdone] at hgo
        cases hgo
      | false => exact ih hstored (hcount hdone) (by omega)

theorem handOver_stored {env : LoaderEnv} {st : LoaderState} {mods : List VmaModule} (h : st.HasStored mods) :
    (handOver env st).HasStored mods := by
  unfold handOver
  split
  · exact h
  · split
    · exact h
    · rw [registerWatchedLib_eq]
      exact h

/-- A start that ends has stored the blocks of the modules, in order. -/
theorem loaderStart_stored : (loaderStart (steadyEnv text mainPath junk)).HasStored (populatedModules text mainPath junk) := by
  have hlibc := populateLibc_stored text mainPath junk
  have hbase := fun hgo => populateLibc_libcBase text mainPath junk (populateMain_halted_of_libc hgo)
  have hnext := (populateLibc_nextModId (steadyEnv text mainPath junk)).1
  have hearly : ∀ st, ¬ exitsEarly (steadyEnv text mainPath junk) st := by
    intro st h
    simp [exitsEarly, steadyEnv] at h
  unfold loaderStart
  dsimp only
  generalize populateLibc (steadyEnv text mainPath junk) (populateMain (steadyEnv text mainPath junk)) = st
    at hlibc hbase hnext ⊢
  split
  · intro hgo
    cases hgo
  · have hld := populateLd_stored text mainPath junk hlibc hbase
    apply handOver_stored
    rw [populatedModules]
    refine registerLibs_stored text (libraries text mainPath) hld ?_ ?_
    · rw [(populateLd_frame _ st).1, hnext]
      rfl
    · rw [Nat.zero_add]
      exact seenLibs_length _ _ _ (Nat.zero_le _)

/-- **What a lookup answers after a start.** The last module populated whose blocks hold the
    address, as long as the start ends and the map has room. -/
theorem vmaLookup_loaderStart (hdone : (loaderStart (steadyEnv text mainPath junk)).halted = false)
    (hroom : NoneRefused (loaderStart (steadyEnv text mainPath junk)).writes) (a : U64) :
    vmaLookup (vmaAfter (loaderStart (steadyEnv text mainPath junk)).writes) a =
      lastCovering (populatedModules text mainPath junk) a := by
  obtain ⟨hw, hfin⟩ := loaderStart_stored text mainPath junk hdone
  rw [vmaLookup_vmaAfter hroom, hw]
  exact lastFor_modules hfin a

end start

/-! Attribution to files. -/

/-- The lines of the text, whatever their length. -/
def textLines (text : List U8) : List CStr := fgetsLines (text.length + 2) text

/-- The mappings of a file. -/
def fileRanges (text : List U8) (path : CStr) : List (U64 × U64) :=
  (textLines text).filterMap fun line => if linePath line = some path then lineRange line else none

/-- The lowest address a file is mapped at, which its policy keys count from. -/
def lowestStart (text : List U8) (path : CStr) : U64 := (hullOf (fileRanges text path)).1

/-- The files the start handles, each with the module id and base its keys stand for: the
    linker's keys are stored relative to `libc_base`. -/
def attributedFiles (text : List U8) (mainPath : CStr) : List (CStr × VmaValue) :=
  (mainPath, ⟨moduleMain, lowestStart text mainPath⟩) ::
  ((if getLibcBase (some text) = 0 then [] else (findLibcPath (some text)).toList).map fun path =>
    (path, ⟨moduleLibc, lowestStart text path⟩)) ++
  ((if LdPopulated text then (findModulePath (some text) (ascii "ld-linux")).toList else []).map fun path =>
    (path, ⟨moduleLibc, libcBaseOf text⟩)) ++
  (libraries text mainPath).zipIdx.map fun p =>
    (p.1, ⟨moduleDynamicBase + BitVec.ofNat 32 p.2, lowestStart text p.1⟩)

/-- Every address of a mapping of one of the files is given its file's value. -/
def Attributes (text : List U8) (mainPath : CStr) (lookup : U64 → Option VmaValue) : Prop :=
  ∀ f ∈ attributedFiles text mainPath, ∀ r ∈ fileRanges text f.1, ∀ a : U64, r.1 ≤ a → a < r.2 → lookup a = some f.2

instance (m : VmaMap) (w : VmaWrite) : Decidable (Accepts m w) := inferInstanceAs (Decidable (¬ _ = none))

instance (ws : List VmaWrite) : Decidable (NoneRefused ws) := inferInstanceAs (Decidable (Along ..))

def packedPath : CStr := ascii "/bin/app"

def noJunk (_ : Nat) : U64 × U64 := (0, 0)

/-- The program and libc alone, far apart. -/
def spacedText : List U8 :=
  ascii "400000-401000 r-xp 0 0:0 1 /bin/app\n7f0000000000-7f0000080000 r-xp 0 0:0 2 /lib/libc.so.6\n"

def spacedWrites : List VmaWrite := [⟨0x400000, 1, 0x400000⟩, ⟨0x7f0000000000, 2, 0x7f0000000000⟩]

theorem spaced_start :
    (loaderStart (steadyEnv spacedText packedPath noJunk)).halted = false ∧
      (loaderStart (steadyEnv spacedText packedPath noJunk)).writes = spacedWrites := by
  decide +kernel

end SentinelStack.Cc
