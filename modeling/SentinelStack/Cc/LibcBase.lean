import SentinelStack.Cc.Attribution

/- Which base libc gets. Three scanners pick libc out of the maps text:
   `get_libc_base` and `find_libc_path` look for `/libc.so` or `/libc-`,
   `populate_vma_for_module` takes every line with `libc` in it, and sets the base
   last. The policy keys of libc count from the lowest mapping of the file
   `find_libc_path` returns.

   Main result: `libc_base_iff` — over a whole run of the loader on one text, the
   base stored for libc and used for the linker is that lowest mapping, if and
   only if the mappings the population counts have the same lowest start. For a
   text whose lines all fit the buffer this says that no line with `libc` in it
   starts below the file (`libcLowest_iff_of_fits`); a program that links
   libcrypto below libc is a counterexample (`libcrypto_below_libc`). -/
namespace SentinelStack.Cc
open SentinelStack.Lib

/-- The least of these addresses. -/
def Lowest (starts : List U64) (a : U64) : Prop := a ∈ starts ∧ ∀ s ∈ starts, a ≤ s

-- by the list: the instance for all addresses would try every one of them
instance (starts : List U64) (a : U64) : Decidable (Lowest starts a) :=
  have : Decidable (∀ s ∈ starts, a ≤ s) := List.decidableBAll _ _
  inferInstanceAs (Decidable (_ ∧ _))

theorem Lowest.unique {starts : List U64} {a b : U64} (ha : Lowest starts a) (hb : Lowest starts b) : a = b :=
  BitVec.le_antisymm (ha.2 b hb.1) (hb.2 a ha.1)

/-- The greatest of these addresses. -/
def Highest (stops : List U64) (a : U64) : Prop := a ∈ stops ∧ ∀ s ∈ stops, s ≤ a

theorem Highest.unique {stops : List U64} {a b : U64} (ha : Highest stops a) (hb : Highest stops b) : a = b :=
  BitVec.le_antisymm (hb.2 a ha.1) (ha.2 b hb.1)

/-! The ends of a hull. -/

/-- Each end is kept for itself. -/
theorem hull_fold (ranges : List (U64 × U64)) (h : U64 × U64) :
    ranges.foldl (fun h r => (if r.1 < h.1 then r.1 else h.1, if r.2 > h.2 then r.2 else h.2)) h =
      (run (fun a x => if x < a then x else a) h.1 (ranges.map (·.1)),
        run (fun a x => if x > a then x else a) h.2 (ranges.map (·.2))) := by
  induction ranges generalizing h with
  | nil => rfl
  | cons r rest ih => rw [List.foldl_cons, ih, List.map_cons, List.map_cons, run_cons, run_cons]

/-- The lower end is `ULONG_MAX` or one of the starts, and the least of them. -/
theorem hullOf_lo (ranges : List (U64 × U64)) : Lowest (BitVec.allOnes 64 :: ranges.map (·.1)) (hullOf ranges).1 := by
  rw [hullOf, hull_fold]
  refine run_pick BitVec.le_refl (fun _ _ _ => BitVec.le_trans) (fun a x => ?_) _ _
  split
  next hlt => exact ⟨Or.inr rfl, BitVec.le_of_lt hlt, BitVec.le_refl _⟩
  next hge => exact ⟨Or.inl rfl, BitVec.le_refl _, BitVec.not_lt.mp hge⟩

/-- The upper end is 0 or one of the ends, and the greatest of them. -/
theorem hullOf_hi (ranges : List (U64 × U64)) : Highest (0 :: ranges.map (·.2)) (hullOf ranges).2 := by
  rw [hullOf, hull_fold]
  refine @run_pick U64 _ (fun a b => b ≤ a) BitVec.le_refl (fun _ _ _ h h' => BitVec.le_trans h' h) (fun a x => ?_) _ _
  split
  next hgt => exact ⟨Or.inr rfl, BitVec.le_of_lt hgt, BitVec.le_refl _⟩
  next hle => exact ⟨Or.inl rfl, BitVec.le_refl _, BitVec.not_lt.mp hle⟩

theorem hullOf_lo_le {ranges : List (U64 × U64)} {r : U64 × U64} (h : r ∈ ranges) : (hullOf ranges).1 ≤ r.1 :=
  (hullOf_lo ranges).2 r.1 (List.mem_cons_of_mem _ (List.mem_map_of_mem h))

theorem hullOf_lo_mem {ranges : List (U64 × U64)} (h : (hullOf ranges).1 ≠ BitVec.allOnes 64) :
    (hullOf ranges).1 ∈ ranges.map (·.1) :=
  List.mem_of_ne_of_mem h (hullOf_lo ranges).1

/-- A hull with a lower end begins at the lowest start. -/
theorem hullOf_lowest {ranges : List (U64 × U64)} (h : (hullOf ranges).1 ≠ BitVec.allOnes 64) :
    Lowest (ranges.map (·.1)) (hullOf ranges).1 := by
  refine ⟨hullOf_lo_mem h, fun s hs => ?_⟩
  obtain ⟨r, hr, rfl⟩ := List.mem_map.mp hs
  exact hullOf_lo_le hr

/-- A start that is the lowest is where the hull begins. -/
theorem hullOf_of_lowest {ranges : List (U64 × U64)} {lo : U64} (h : Lowest (ranges.map (·.1)) lo) :
    (hullOf ranges).1 = lo := by
  apply (hullOf_lo ranges).unique
  refine ⟨List.mem_cons_of_mem _ h.1, fun s hs => ?_⟩
  rcases List.mem_cons.mp hs with rfl | hs
  · exact BitVec.le_def.mpr (by rw [BitVec.toNat_allOnes]; have := lo.isLt; omega)
  · exact h.2 s hs

theorem hullOf_of_highest {ranges : List (U64 × U64)} {hi : U64} (h : Highest (ranges.map (·.2)) hi) :
    (hullOf ranges).2 = hi := by
  apply (hullOf_hi ranges).unique
  refine ⟨List.mem_cons_of_mem _ h.1, fun s hs => ?_⟩
  rcases List.mem_cons.mp hs with rfl | hs
  · exact BitVec.le_def.mpr (Nat.zero_le _)
  · exact h.2 s hs

/-! The base of the run. -/

section run
variable (text : List U8) (mainPath : CStr) (junk : Nat → U64 × U64)

/-- Where the mappings of a file start. -/
def fileStarts (path : CStr) : List U64 := (fileRanges text path).map (·.1)

/-- The starts `populate_vma_for_module` takes the least of; without one, what `get_libc_base`
    found stays. -/
def libcCandidates : List U64 :=
  if (hullOf (libcRanges text)).1 = BitVec.allOnes 64 then [getLibcBase (some text)]
  else (libcRanges text).map (·.1)

/-- The mappings the population counts have the file's lowest start as theirs. -/
def LibcLowest (path : CStr) : Prop := ∃ lo, Lowest (fileStarts text path) lo ∧ Lowest (libcCandidates text) lo

/-- Every base of the run is the lowest mapping of the file: the one the linker's keys count from,
    and those stored for libc, at the start or by a later scan. -/
def LibcBaseAgrees (scans : List ScanEnv) (path : CStr) : Prop :=
  Lowest (fileStarts text path)
      (populateLibc (steadyEnv text mainPath junk) (populateMain (steadyEnv text mainPath junk))).libcBase ∧
    ∀ w ∈ (loaderRun (steadyEnv text mainPath junk) scans).writes, w.moduleId = moduleLibc →
      Lowest (fileStarts text path) w.baseAddr

end run

/-- libc's entries have the base `b`, and no id to be given out is libc's. -/
def LoaderState.LibcAt (b : U64) (st : LoaderState) : Prop :=
  (∀ w ∈ st.writes, w.moduleId = moduleLibc → w.baseAddr = b) ∧ moduleLibc < st.nextModId

theorem addLibrary_libcAt {b : U64} {fuel : Nat} {lib : LibEnv} {path : CStr} {st : LoaderState} (h : st.LibcAt b)
    (hnext : st.nextModId < maxModules) : (addLibrary fuel lib path st).LibcAt b := by
  obtain ⟨hbase, hid⟩ := h
  have hwrites : ∀ w ∈ st.writes ++ (populateVmaForModule fuel lib.maps (shortName path) st.nextModId).writes,
      w.moduleId = moduleLibc → w.baseAddr = b := by
    intro w hw hlibc
    cases List.mem_append.mp hw with
    | inl hw => exact hbase w hw hlibc
    | inr hw =>
      rw [(populate_mem hw).1] at hlibc
      rw [hlibc] at hid
      exact absurd hid (BitVec.lt_irrefl _)
  have hid' : moduleLibc < st.nextModId + 1 := by
    simp only [maxModules, moduleLibc] at hnext hid ⊢
    bv_omega
  rcases addLibrary_cases fuel lib path st with ⟨-, hsame⟩ | ⟨-, ⟨-, hstuck⟩ | ⟨-, hadded⟩⟩
  · rw [hsame]
    exact ⟨hbase, hid⟩
  · rw [hstuck]
    exact ⟨hwrites, hid⟩
  · rw [hadded]
    exact ⟨hwrites, hid'⟩

theorem registerLibs_libcAt {b : U64} {fuel : Nat} {libs : Nat → LibEnv} (paths : List CStr) (i : Nat)
    {st : LoaderState} (h : st.LibcAt b) : (registerLibs fuel libs paths i st).LibcAt b :=
  registerLibs_inv (fun _ _ _ hat _ hnext => addLibrary_libcAt hat hnext) paths i h

theorem dlopenScanLoop_libcAt {b : U64} {env : LoaderEnv} {libs : Nat → LibEnv} (lines : List CStr) (i : Nat)
    {st : LoaderState} (h : st.LibcAt b) : (dlopenScanLoop env libs lines i st).LibcAt b :=
  dlopenScanLoop_inv (fun _ _ _ hat _ hnext => addLibrary_libcAt hat hnext) lines i h

/-- The linker's entries get the base libc has. -/
theorem populateLd_libcAt {env : LoaderEnv} {st : LoaderState} (h : st.LibcAt st.libcBase) :
    (populateLd env st).LibcAt st.libcBase := by
  unfold populateLd
  split
  · exact h
  split
  · refine ⟨fun w hw hlibc => ?_, h.2⟩
    cases List.mem_append.mp hw with
    | inl hw => exact h.1 w hw hlibc
    | inr hw => exact (ldBlocks_mem hw).2
  · exact h

theorem handOver_libcAt {b : U64} {env : LoaderEnv} {st : LoaderState} (h : st.LibcAt b) (hc : st.Counted) :
    (handOver env st).LibcAt b := by
  have hid := h.2
  rw [hc.1] at hid
  unfold handOver
  split
  · exact h
  split
  · exact ⟨h.1, hid⟩
  · rw [registerWatchedLib_eq]
    exact ⟨h.1, hid⟩

theorem populateLibc_libcAt (env : LoaderEnv) :
    (populateLibc env (populateMain env)).LibcAt (populateLibc env (populateMain env)).libcBase := by
  refine ⟨fun w hw hlibc => ?_, ?_⟩
  · cases populateLibc_spec env hw with
    | inl hmain => rw [hmain] at hlibc; exact absurd hlibc (by decide)
    | inr hlibc => exact hlibc.2
  · rw [(populateLibc_nextModId env).1]
    decide

theorem loaderStart_libcAt (env : LoaderEnv) :
    (loaderStart env).LibcAt (populateLibc env (populateMain env)).libcBase := by
  have hlibc := populateLibc_libcAt env
  unfold loaderStart
  dsimp only
  split
  · exact hlibc
  · have hld : (populateLd env _).LibcAt _ := populateLd_libcAt hlibc
    refine handOver_libcAt (registerLibs_libcAt _ _ hld) ?_
    exact (registerLibs_ok _ _ (populateLd_ok env) (populateLd_counted env)).2

/-- In every run of the loader libc's entries carry the base that its population set. -/
theorem loaderRun_libcAt (env : LoaderEnv) (scans : List ScanEnv) :
    (loaderRun env scans).LibcAt (populateLibc env (populateMain env)).libcBase :=
  run_inv (fun _ _ h => dlopenScanLoop_libcAt _ _ h) (loaderStart_libcAt env) scans

/-! Against the file. -/

theorem libcBaseOf_lowest {text : List U8} (hbase : getLibcBase (some text) ≠ 0) :
    Lowest (libcCandidates text) (libcBaseOf text) := by
  unfold libcCandidates libcBaseOf
  rw [if_neg hbase]
  split
  · exact ⟨List.mem_singleton_self _, fun s hs => by rw [List.mem_singleton.mp hs]; exact BitVec.le_refl _⟩
  · next hne => exact hullOf_lowest hne

/-- The buffer holds every line. -/
def FitsBuffer (text : List U8) : Prop := fgetsLines 512 text = textLines text

instance (text : List U8) : Decidable (FitsBuffer text) := inferInstanceAs (Decidable (_ = _))

/-- A line of libc is found by a name that begins a path component and has `libc` in it. -/
theorem isLibcLine_name {line : CStr} (h : isLibcLine line) :
    ∃ name, Strstr line (slash :: name) ∧ newline ∉ slash :: name ∧ ascii "libc" <:+: slash :: name := by
  cases h with
  | inl hso => exact ⟨ascii "libc.so", hso, by decide, by decide⟩
  | inr hdash => exact ⟨ascii "libc-", hdash, by decide, by decide⟩

/-- The path `find_libc_path` returns has `libc` in it. -/
theorem findLibcPath_libc {text : List U8} {path : CStr} (h : findLibcPath (some text) = some path) :
    Strstr path (ascii "libc") := by
  obtain ⟨line, hline, hif⟩ := List.exists_of_findSome?_eq_some h
  split at hif
  · next hlibc =>
    obtain ⟨name, hname, hnl, hin⟩ := isLibcLine_name hlibc.1
    obtain ⟨path', hpath', hfound⟩ := linePath_of_strstr hname hnl (fgetsLines_newline hline)
    rw [hpath', Option.some.injEq] at hif
    rw [← hif]
    exact hin.trans hfound
  · cases hif

/-- With lines that fit the buffer, the population counts the file's own mappings. -/
theorem fileRanges_subset {text : List U8} {path : CStr} (hfits : FitsBuffer text)
    (hpath : findLibcPath (some text) = some path) : fileRanges text path ⊆ libcRanges text := by
  intro r hr
  obtain ⟨line, hline, hif⟩ := List.mem_filterMap.mp hr
  split at hif
  · next hfile =>
    refine List.mem_filterMap.mpr ⟨line, hfits ▸ hline, ?_⟩
    have hlibc : Strstr line (ascii "libc") := (findLibcPath_libc hpath).trans (linePath_within hfile)
    rw [if_pos hlibc]
    exact hif
  · cases hif

/-- For such a text, and a file that is mapped, what counts is that no line with `libc` in it
    starts below the file. -/
theorem libcLowest_iff_of_fits {text : List U8} {path : CStr} (hfits : FitsBuffer text)
    (hpath : findLibcPath (some text) = some path) (hmapped : lowestStart text path ≠ BitVec.allOnes 64) :
    LibcLowest text path ↔ ∀ r ∈ libcRanges text, lowestStart text path ≤ r.1 := by
  have hfile : Lowest (fileStarts text path) (lowestStart text path) := hullOf_lowest hmapped
  -- the file's lowest mapping is among those counted, so that the population takes the least of them
  obtain ⟨r, hr, hlo⟩ := List.mem_map.mp hfile.1
  have hcounted := fileRanges_subset hfits hpath hr
  have hcandidates : libcCandidates text = (libcRanges text).map (·.1) := by
    apply if_neg
    intro hnone
    have hle := hullOf_lo_le hcounted
    rw [hnone, hlo] at hle
    exact hmapped (BitVec.allOnes_le_iff.mp hle)
  unfold LibcLowest
  rw [hcandidates]
  constructor
  · rintro ⟨lo, hlo', hleast⟩ r' hr'
    rw [hfile.unique hlo']
    exact hleast.2 r'.1 (List.mem_map_of_mem hr')
  · intro hbelow
    refine ⟨lowestStart text path, hfile, List.mem_map.mpr ⟨r, hcounted, hlo⟩, fun s hs => ?_⟩
    obtain ⟨r', hr', rfl⟩ := List.mem_map.mp hs
    exact hbelow r' hr'

/-- **Which base libc gets.** For every text in which `get_libc_base` and `find_libc_path` find
    something, once the main binary's population has ended: the bases of the run are the lowest
    mapping of the file found, if and only if the population counts that mapping and none lower;
    where the lines fit the buffer, if and only if no line with `libc` in it starts lower. -/
theorem libc_base_iff (text : List U8) (mainPath : CStr) (junk : Nat → U64 × U64) (scans : List ScanEnv) (path : CStr)
    (hbase : getLibcBase (some text) ≠ 0) (hpath : findLibcPath (some text) = some path)
    (hmain : (populateMain (steadyEnv text mainPath junk)).halted = false) :
    (LibcBaseAgrees text mainPath junk scans path ↔ LibcLowest text path) ∧
      (FitsBuffer text → lowestStart text path ≠ BitVec.allOnes 64 →
        (LibcBaseAgrees text mainPath junk scans path ↔ ∀ r ∈ libcRanges text, lowestStart text path ≤ r.1)) := by
  have hset := populateLibc_libcBase text mainPath junk hmain
  have hrun := (loaderRun_libcAt (steadyEnv text mainPath junk) scans).1
  have hlowest := libcBaseOf_lowest hbase
  have hagrees : LibcBaseAgrees text mainPath junk scans path ↔ LibcLowest text path := by
    unfold LibcBaseAgrees
    rw [hset] at hrun ⊢
    constructor
    · intro h
      exact ⟨libcBaseOf text, h.1, hlowest⟩
    · rintro ⟨lo, hfile, hcounted⟩
      rw [hcounted.unique hlowest] at hfile
      exact ⟨hfile, fun w hw hlibc => by rw [hrun w hw hlibc]; exact hfile⟩
  exact ⟨hagrees, fun hfits hmapped => hagrees.trans (libcLowest_iff_of_fits hfits hpath hmapped)⟩

/-- libc alone gets its own base. -/
theorem libc_base_spaced : LibcBaseAgrees spacedText packedPath noJunk [] (ascii "/lib/libc.so.6") := by
  obtain ⟨hbase, hpath, hmain, hfits, hmapped, hlowest⟩ : getLibcBase (some spacedText) ≠ 0 ∧
      findLibcPath (some spacedText) = some (ascii "/lib/libc.so.6") ∧
      (populateMain (steadyEnv spacedText packedPath noJunk)).halted = false ∧ FitsBuffer spacedText ∧
      lowestStart spacedText (ascii "/lib/libc.so.6") ≠ BitVec.allOnes 64 ∧
      (libcRanges spacedText).all (fun r => lowestStart spacedText (ascii "/lib/libc.so.6") ≤ r.1) = true := by
    decide +kernel
  exact ((libc_base_iff spacedText packedPath noJunk [] (ascii "/lib/libc.so.6") hbase hpath hmain).2 hfits hmapped).mpr
    fun r hr => of_decide_eq_true (List.all_eq_true.mp hlowest r hr)

/-- A program that links libcrypto, mapped below libc. -/
def cryptoText : List U8 :=
  ascii "400000-401000 r-xp 0 0:0 1 /bin/app\n7f0000000000-7f0000080000 r-xp 0 0:0 2 /lib/libcrypto.so.3\n" ++
    ascii "7f0000100000-7f0000180000 r-xp 0 0:0 3 /lib/libc.so.6\n"

/-- **libc gets the base of libcrypto.** Both scanners find libc at `0x7f0000100000`, and the
    population records `0x7f0000000000` for it. -/
theorem libcrypto_below_libc :
    getLibcBase (some cryptoText) = 0x7f0000100000 ∧ findLibcPath (some cryptoText) = some (ascii "/lib/libc.so.6") ∧
      (populateMain (steadyEnv cryptoText packedPath noJunk)).halted = false ∧
      libcBaseOf cryptoText = 0x7f0000000000 ∧
      ¬ LibcBaseAgrees cryptoText packedPath noJunk [] (ascii "/lib/libc.so.6") := by
  obtain ⟨hfound, hpath, hmain, hbase, hnot⟩ : getLibcBase (some cryptoText) = 0x7f0000100000 ∧
      findLibcPath (some cryptoText) = some (ascii "/lib/libc.so.6") ∧
      (populateMain (steadyEnv cryptoText packedPath noJunk)).halted = false ∧
      libcBaseOf cryptoText = 0x7f0000000000 ∧
      ¬ Lowest (fileStarts cryptoText (ascii "/lib/libc.so.6")) 0x7f0000000000 := by
    decide +kernel
  refine ⟨hfound, hpath, hmain, hbase, fun h => hnot ?_⟩
  have hlowest := h.1
  rw [populateLibc_libcBase cryptoText packedPath noJunk hmain, hbase] at hlowest
  exact hlowest

end SentinelStack.Cc
