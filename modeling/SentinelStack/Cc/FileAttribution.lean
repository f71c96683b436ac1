import SentinelStack.Cc.LibcBase

/- When an address is attributed to its file. For each file it handles, the start of the
   loader takes all the lines of the maps text that mention it: the program's and a
   library's short name, `libc`, or one of the linker's names. The block loop then fills
   from the lowest start of these lines to the highest end.

   Main result: `attribution_iff` — every address of every mapping of a handled file
   resolves to that file, if and only if of each such file and address: the lines taken
   for the file have the file's lowest start, they reach over the address's block, and
   those taken for a file handled later do not. -/
namespace SentinelStack.Cc
open SentinelStack.Lib

/-- What the start handles a file as. -/
inductive Role where
  | program
  | libc
  | linker
  | library (i : Nat)
  deriving DecidableEq, Repr

/-- The place in the order of the start, where libc and the linker are one module. -/
def Role.rank : Role → Nat
  | program => 0
  | libc => 1
  | linker => 1
  | library i => i + 2

/-- Lines with these ranges reach over the block of `a`: one starts in it or below, and one ends
    above its first byte. A start of `ULONG_MAX` is none. -/
def Spans (ranges : List (U64 × U64)) (a : U64) : Prop :=
  (∃ r ∈ ranges, r.1 ≠ BitVec.allOnes 64 ∧ r.1.toNat / 2 ^ vmaBlockShift ≤ a.toNat / 2 ^ vmaBlockShift) ∧
    ∃ r ∈ ranges, a.toNat / 2 ^ vmaBlockShift * 2 ^ vmaBlockShift < r.2.toNat

section
variable (text : List U8) (mainPath : CStr) (junk : Nat → U64 × U64)

/-- The files handled, in order. -/
def handledFiles : List (Role × CStr) :=
  (.program, mainPath) ::
  ((if getLibcBase (some text) = 0 then [] else (findLibcPath (some text)).toList).map fun path => (.libc, path)) ++
  ((if LdPopulated text then (findModulePath (some text) (ascii "ld-linux")).toList else []).map fun path =>
    (.linker, path)) ++
  (libraries text mainPath).zipIdx.map fun p => (.library p.2, p.1)

/-- The ranges on the lines taken for each role, in order. -/
def takenRanges : List (Role × List (U64 × U64)) :=
  (.program, matchingRanges (fgetsLines 512 text) (shortName mainPath)) ::
  (if getLibcBase (some text) = 0 then [] else [(.libc, libcRanges text)]) ++
  (if LdPopulated text then [(.linker, ldRanges (fgetsLines 512 text) junk)] else []) ++
  (libraries text mainPath).zipIdx.map fun p => (.library p.2, matchingRanges (fgetsLines 512 text) (shortName p.1))

/-- The lines taken for the file have its lowest start as theirs. The linker has libc's base. -/
def KeepsLowest : Role × CStr → Prop
  | (.libc, path) => LibcLowest text path
  | (.linker, _) => True
  | (_, path) => ∃ lo, Lowest (fileStarts text path) lo ∧
      Lowest ((matchingRanges (fgetsLines 512 text) (shortName path)).map (·.1)) lo

/-- For every address of every mapping of a handled file: the lines taken for the file start where
    it does, they reach over the address's block, and those taken for a later file do not. -/
def LinesSeparate : Prop :=
  ∀ f ∈ handledFiles text mainPath, ∀ r ∈ fileRanges text f.2, ∀ a : U64, r.1 ≤ a → a < r.2 →
    KeepsLowest text f ∧
      (∃ t ∈ takenRanges text mainPath junk, t.1.rank = f.1.rank ∧ Spans t.2 a) ∧
      ∀ t ∈ takenRanges text mainPath junk, f.1.rank < t.1.rank → ¬ Spans t.2 a

/-- The entry stored for a role whose lines start at `lo`. -/
def storedValue (role : Role) (lo : U64) : VmaValue :=
  match role with
  | .program => ⟨moduleMain, lo⟩
  | .libc => ⟨moduleLibc, lo⟩
  | .linker => ⟨moduleLibc, libcBaseOf text⟩
  | .library i => ⟨moduleDynamicBase + BitVec.ofNat 32 i, lo⟩

/-! The modules of the roles. -/

theorem attributedFiles_eq :
    attributedFiles text mainPath =
      (handledFiles text mainPath).map fun f => (f.2, storedValue text f.1 (lowestStart text f.2)) := by
  simp only [attributedFiles, handledFiles, List.map_cons, List.map_append, List.map_map]
  rfl

theorem populatedModules_eq :
    populatedModules text mainPath junk =
      (takenRanges text mainPath junk).flatMap fun t => moduleOf t.2 (storedValue text t.1) := by
  unfold populatedModules takenRanges mainModule libcModule ldModule
  rw [List.flatMap_append, List.flatMap_append, List.flatMap_cons, List.flatMap_map]
  congr 1
  congr 1
  · congr 1
    split
    · rfl
    · rw [List.flatMap_singleton]
      rfl
  · split
    · rw [List.flatMap_singleton]
      rfl
    · rfl

variable {text mainPath junk}

theorem mem_takenRanges {t : Role × List (U64 × U64)} (h : t ∈ takenRanges text mainPath junk) :
    t = (.program, matchingRanges (fgetsLines 512 text) (shortName mainPath)) ∨
      getLibcBase (some text) ≠ 0 ∧ t = (.libc, libcRanges text) ∨
      LdPopulated text ∧ t = (.linker, ldRanges (fgetsLines 512 text) junk) ∨
      ∃ i path, (libraries text mainPath)[i]? = some path ∧
        t = (.library i, matchingRanges (fgetsLines 512 text) (shortName path)) := by
  simp only [takenRanges, List.mem_append, List.mem_cons, List.mem_ite_nil_left, List.mem_ite_nil_right,
    List.not_mem_nil, or_false, List.mem_map] at h
  rcases h with ((hmain | hlibc) | hld) | ⟨⟨path, i⟩, hp, rfl⟩
  · exact Or.inl hmain
  · exact Or.inr (Or.inl hlibc)
  · exact Or.inr (Or.inr (Or.inl hld))
  · exact Or.inr (Or.inr (Or.inr ⟨i, path, List.mem_zipIdx_iff_getElem?.mp hp, rfl⟩))

theorem mem_handledFiles {f : Role × CStr} (h : f ∈ handledFiles text mainPath) :
    f = (.program, mainPath) ∨ getLibcBase (some text) ≠ 0 ∧ f.1 = .libc ∨ LdPopulated text ∧ f.1 = .linker ∨
      ∃ i, (libraries text mainPath)[i]? = some f.2 ∧ f.1 = .library i := by
  simp only [handledFiles, List.mem_append, List.mem_cons, List.mem_map, List.mem_ite_nil_left,
    List.mem_ite_nil_right] at h
  rcases h with ((hmain | ⟨path, ⟨hbase, -⟩, rfl⟩) | ⟨path, ⟨hld, -⟩, rfl⟩) | ⟨⟨path, i⟩, hp, rfl⟩
  · exact Or.inl hmain
  · exact Or.inr (Or.inl ⟨hbase, rfl⟩)
  · exact Or.inr (Or.inr (Or.inl ⟨hld, rfl⟩))
  · exact Or.inr (Or.inr (Or.inr ⟨i, List.mem_zipIdx_iff_getElem?.mp hp, rfl⟩))

/-- Roles come in the order of their ranks. -/
theorem takenRanges_sorted (text : List U8) (mainPath : CStr) (junk : Nat → U64 × U64) :
    (takenRanges text mainPath junk).Pairwise fun t u => t.1.rank ≤ u.1.rank := by
  have hlibs : ((libraries text mainPath).zipIdx.map fun p =>
      (Role.library p.2, matchingRanges (fgetsLines 512 text) (shortName p.1))).Pairwise
        fun t u => t.1.rank ≤ u.1.rank := by
    refine List.pairwise_map.mpr (List.pairwise_iff_getElem.mpr fun i j hi hj hij => ?_)
    simp only [List.getElem_zipIdx, Role.rank]
    omega
  have hopt : ∀ (c : Prop) [Decidable c] (t : Role × List (U64 × U64)), (if c then [t] else []).Pairwise
      fun t u => t.1.rank ≤ u.1.rank := by
    intro c _ t
    split <;> simp
  unfold takenRanges
  simp only [← ite_not (p := getLibcBase (some text) = 0)]
  refine List.pairwise_append.mpr ⟨List.pairwise_append.mpr ⟨List.pairwise_cons.mpr ⟨?_, hopt _ _⟩, hopt _ _, ?_⟩,
    hlibs, ?_⟩
  · intro u _
    exact Nat.zero_le _
  · simp only [List.mem_cons, List.mem_ite_nil_right, List.not_mem_nil, or_false]
    rintro t (rfl | ⟨-, rfl⟩) u ⟨-, rfl⟩ <;> simp only [Role.rank] <;> omega
  · simp only [List.mem_append, List.mem_cons, List.mem_ite_nil_right, List.not_mem_nil, or_false, List.mem_map]
    rintro t ((rfl | ⟨-, rfl⟩) | ⟨-, rfl⟩) u ⟨p, -, rfl⟩ <;> simp only [Role.rank] <;> omega

theorem taken_program {t : Role × List (U64 × U64)} (h : t ∈ takenRanges text mainPath junk) (hrank : t.1.rank = 0) :
    t = (.program, matchingRanges (fgetsLines 512 text) (shortName mainPath)) := by
  rcases mem_takenRanges h with hmain | ⟨-, rfl⟩ | ⟨-, rfl⟩ | ⟨i, _, -, rfl⟩
  · exact hmain
  all_goals cases hrank

theorem taken_library {t : Role × List (U64 × U64)} {i : Nat} {path : CStr} (h : t ∈ takenRanges text mainPath junk)
    (hi : (libraries text mainPath)[i]? = some path) (hrank : t.1.rank = i + 2) :
    t = (.library i, matchingRanges (fgetsLines 512 text) (shortName path)) := by
  rcases mem_takenRanges h with rfl | ⟨-, rfl⟩ | ⟨-, rfl⟩ | ⟨j, path', hj, rfl⟩
  · cases hrank
  · simp [Role.rank] at hrank
  · simp [Role.rank] at hrank
  · obtain rfl : j = i := Nat.add_right_cancel hrank
    rw [hj, Option.some.injEq] at hi
    rw [hi]

/-- At most 32 libraries are found. -/
theorem library_lt {i : Nat} {path : CStr} (h : (libraries text mainPath)[i]? = some path) : i < maxDiscoveredLibs := by
  have hlen := seenLibs_length (shortName mainPath) (fgetsLines 512 text) [] (Nat.zero_le _)
  exact (List.getElem?_eq_some_iff.mp h).1.trans_le hlen

/-! The role a lookup finds. -/

/-- The last element of a list that satisfies `P`, where the list is ordered by a rank: its rank is
    `k` when some element of that rank satisfies `P` and none of a higher one. -/
theorem find?_reverse_rank {α : Type} {rank : α → Nat} {ts : List α} {P : α → Bool}
    (hsorted : ts.Pairwise fun t u => rank t ≤ rank u) (k : Nat) :
    (∃ t, ts.reverse.find? P = some t ∧ rank t = k) ↔
      (∃ t ∈ ts, rank t = k ∧ P t) ∧ ∀ t ∈ ts, k < rank t → ¬ P t := by
  constructor
  · rintro ⟨t, hfind, rfl⟩
    obtain ⟨ht, after, before, hsplit, hafter⟩ := List.find?_eq_some_iff_append.mp hfind
    have hts : ts = before.reverse ++ t :: after.reverse := by simpa using congrArg List.reverse hsplit
    rw [hts, List.pairwise_append] at hsorted
    refine ⟨⟨t, by simp [hts], rfl, ht⟩, fun u hu hlt => ?_⟩
    rw [hts, List.mem_append, List.mem_cons] at hu
    rcases hu with hu | rfl | hu
    · exact absurd (hsorted.2.2 u hu t List.mem_cons_self) (by omega)
    · omega
    · simpa using hafter u (List.mem_reverse.mp hu)
  · rintro ⟨⟨t, ht, rfl, hPt⟩, hnone⟩
    obtain ⟨u, hfind⟩ := Option.isSome_iff_exists.mp
      (List.find?_isSome.mpr ⟨t, List.mem_reverse.mpr ht, hPt⟩)
    refine ⟨u, hfind, ?_⟩
    obtain ⟨hu, after, before, hsplit, hafter⟩ := List.find?_eq_some_iff_append.mp hfind
    have hts : ts = before.reverse ++ u :: after.reverse := by simpa using congrArg List.reverse hsplit
    have hle : ¬ rank t < rank u := fun hlt => hnone u (by simp [hts]) hlt hu
    rw [hts, List.pairwise_append] at hsorted
    rw [hts, List.mem_append, List.mem_cons] at ht
    rcases ht with ht | rfl | ht
    · have := hsorted.2.2 t ht u List.mem_cons_self
      omega
    · rfl
    · exact absurd hPt (by simpa using hafter t (List.mem_reverse.mp ht))

theorem Spans.hull_ne {ranges : List (U64 × U64)} {a : U64} (h : Spans ranges a) :
    (hullOf ranges).1 ≠ BitVec.allOnes 64 := by
  obtain ⟨⟨r, hr, hstart, -⟩, -⟩ := h
  intro hnone
  have hle := hullOf_lo_le hr
  rw [hnone] at hle
  exact hstart (BitVec.allOnes_le_iff.mp hle)

/-- The module of some ranges covers what lines with these ranges reach over. -/
theorem covers_moduleOf (ranges : List (U64 × U64)) (value : U64 → VmaValue) (a : U64) :
    (∃ m ∈ moduleOf ranges value, m.Covers a) ↔ Spans ranges a := by
  unfold moduleOf Spans VmaModule.Covers
  dsimp only
  by_cases hnone : (hullOf ranges).1 = BitVec.allOnes 64
  · rw [if_pos hnone]
    constructor
    · rintro ⟨m, hm, -⟩
      cases hm
    · exact fun h => absurd hnone (Spans.hull_ne h)
  · rw [if_neg hnone]
    simp only [List.mem_singleton, exists_eq_left]
    refine and_congr ⟨fun hlo => ?_, ?_⟩ ⟨fun hhi => ?_, ?_⟩
    · obtain ⟨r, hr, hstart⟩ := List.mem_map.mp (hullOf_lo_mem hnone)
      exact ⟨r, hr, hstart ▸ hnone, hstart ▸ hlo⟩
    · rintro ⟨r, hr, -, hlo⟩
      exact (Nat.div_le_div_right (hullOf_lo_le hr)).trans hlo
    · rcases List.mem_cons.mp (hullOf_hi ranges).1 with hzero | hmem
      · rw [hzero] at hhi
        exact absurd hhi (Nat.not_lt_zero _)
      · obtain ⟨r, hr, hend⟩ := List.mem_map.mp hmem
        exact ⟨r, hr, hend ▸ hhi⟩
    · rintro ⟨r, hr, hhi⟩
      exact hhi.trans_le ((hullOf_hi ranges).2 r.2 (List.mem_cons_of_mem _ (List.mem_map_of_mem hr)))

open Classical in
theorem lastCovering_append_moduleOf (mods : List VmaModule) (ranges : List (U64 × U64)) (value : U64 → VmaValue)
    (a : U64) :
    lastCovering (mods ++ moduleOf ranges value) a =
      if Spans ranges a then some (value (hullOf ranges).1) else lastCovering mods a := by
  have hspans := covers_moduleOf ranges value a
  unfold moduleOf at hspans ⊢
  dsimp only at hspans ⊢
  split at hspans
  next hnone =>
    have hnot : ¬ Spans ranges a := fun h => by simpa using hspans.mpr h
    rw [if_pos hnone, List.append_nil, if_neg hnot]
  next hsome =>
    simp only [List.mem_singleton, exists_eq_left] at hspans
    rw [if_neg hsome, lastCovering, List.reverse_append, List.reverse_singleton, List.singleton_append, List.find?_cons]
    by_cases hcovers : Spans ranges a
    · rw [if_pos hcovers, decide_eq_true (hspans.mpr hcovers)]
      rfl
    · rw [if_neg hcovers, decide_eq_false (mt hspans.mp hcovers)]
      rfl

open Classical in
/-- The value of the last role whose lines reach over the block of the address. -/
theorem lastCovering_roles (text : List U8) (ts : List (Role × List (U64 × U64))) (a : U64) :
    lastCovering (ts.flatMap fun t => moduleOf t.2 (storedValue text t.1)) a =
      (ts.reverse.find? fun t => Spans t.2 a).map fun t => storedValue text t.1 (hullOf t.2).1 := by
  induction ts using List.reverseRecOn with
  | nil => rfl
  | append_singleton ts t ih =>
    rw [List.flatMap_append, List.flatMap_singleton, lastCovering_append_moduleOf, ih, List.reverse_append,
      List.reverse_singleton, List.singleton_append, List.find?_cons]
    by_cases hspans : Spans t.2 a
    · rw [if_pos hspans, decide_eq_true hspans]
      rfl
    · rw [if_neg hspans, decide_eq_false hspans]

/-! The value a file should have. -/

theorem storedValue_moduleId (role : Role) (lo : U64) :
    (storedValue text role lo).moduleId = BitVec.ofNat 32 (role.rank + 1) := by
  cases role with
  | library i =>
    show (3 : U32) + BitVec.ofNat 32 i = BitVec.ofNat 32 (i + 2 + 1)
    rw [show i + 2 + 1 = 3 + i by omega, BitVec.ofNat_add]
    rfl
  | _ => rfl

theorem same_module_iff (moduleId : U32) {x y : U64} : (⟨moduleId, x⟩ : VmaValue) = ⟨moduleId, y⟩ ↔ x = y := by
  rw [VmaValue.mk.injEq, and_iff_right rfl]

theorem lowest_agree {starts stops : List U64} {x y : U64} (hx : Lowest starts x) (hy : Lowest stops y) :
    y = x ↔ ∃ lo, Lowest starts lo ∧ Lowest stops lo := by
  constructor
  · rintro rfl
    exact ⟨y, hx, hy⟩
  · rintro ⟨lo, hlo, hlo'⟩
    rw [hx.unique hlo, hy.unique hlo']

/-- A file that is mapped somewhere has a lowest start. -/
theorem lowestStart_lowest {path : CStr} {r : U64 × U64} (hr : r ∈ fileRanges text path) {a : U64} (hlo : r.1 ≤ a)
    (hhi : a < r.2) : Lowest (fileStarts text path) (lowestStart text path) := by
  apply hullOf_lowest
  intro hnone
  have hle := hullOf_lo_le hr
  rw [hnone] at hle
  have hall := BitVec.allOnes_le_iff.mp (BitVec.le_trans hle hlo)
  rw [hall] at hhi
  exact absurd hhi (by rw [BitVec.lt_def, BitVec.toNat_allOnes]; have := r.2.isLt; omega)

/-- Ranges that reach over a block have a lowest start. -/
theorem Spans.lowest {ranges : List (U64 × U64)} {a : U64} (h : Spans ranges a) :
    Lowest (ranges.map (·.1)) (hullOf ranges).1 := hullOf_lowest h.hull_ne

theorem rank_takenRanges {t : Role × List (U64 × U64)} (h : t ∈ takenRanges text mainPath junk) :
    t.1.rank ≤ maxDiscoveredLibs + 1 := by
  rcases mem_takenRanges h with rfl | ⟨-, rfl⟩ | ⟨-, rfl⟩ | ⟨i, _, hi, rfl⟩
  · exact Nat.zero_le _
  · exact Nat.le_add_left 1 _
  · exact Nat.le_add_left 1 _
  · exact Nat.add_le_add_right (library_lt hi) 1

theorem rank_handledFiles {f : Role × CStr} (h : f ∈ handledFiles text mainPath) :
    f.1.rank ≤ maxDiscoveredLibs + 1 := by
  rcases mem_handledFiles h with rfl | ⟨-, hrole⟩ | ⟨-, hrole⟩ | ⟨i, hi, hrole⟩
  · exact Nat.zero_le _
  · exact hrole ▸ Nat.le_add_left 1 _
  · exact hrole ▸ Nat.le_add_left 1 _
  · exact hrole ▸ Nat.add_le_add_right (library_lt hi) 1

/-- Different ranks are different module ids. -/
theorem storedValue_rank {f : Role × CStr} {t : Role × List (U64 × U64)} (hf : f ∈ handledFiles text mainPath)
    (ht : t ∈ takenRanges text mainPath junk) {x y : U64}
    (h : storedValue text t.1 x = storedValue text f.1 y) : t.1.rank = f.1.rank := by
  have hid := congrArg VmaValue.moduleId h
  rw [storedValue_moduleId, storedValue_moduleId, ← BitVec.toNat_inj, BitVec.toNat_ofNat, BitVec.toNat_ofNat] at hid
  have ht := rank_takenRanges ht
  have hf := rank_handledFiles hf
  simp only [maxDiscoveredLibs] at ht hf
  omega

/-- The base of libc's and the linker's entries. -/
theorem storedValue_libcBase {t : Role × List (U64 × U64)} (ht : t ∈ takenRanges text mainPath junk) {a : U64}
    (hspans : Spans t.2 a) (hrank : t.1.rank = 1) :
    getLibcBase (some text) ≠ 0 ∧ storedValue text t.1 (hullOf t.2).1 = ⟨moduleLibc, libcBaseOf text⟩ := by
  rcases mem_takenRanges ht with rfl | ⟨hbase, rfl⟩ | ⟨hld, rfl⟩ | ⟨i, path, hi, rfl⟩
  · cases hrank
  · refine ⟨hbase, ?_⟩
    have hsome : (hullOf (libcRanges text)).1 ≠ BitVec.allOnes 64 := hspans.hull_ne
    rw [storedValue, libcBaseOf, if_neg hbase, if_neg hsome]
  · refine ⟨fun hzero => hld.1 ?_, rfl⟩
    rw [libcBaseOf, if_pos hzero]
  · simp only [Role.rank] at hrank
    omega

/-- The role found has the value of the file exactly when it has the file's rank and the lines
    taken for the file start where the file does. -/
theorem storedValue_eq_iff {f : Role × CStr} {t : Role × List (U64 × U64)} (hf : f ∈ handledFiles text mainPath)
    (ht : t ∈ takenRanges text mainPath junk) {a : U64} (hspans : Spans t.2 a)
    (hfile : Lowest (fileStarts text f.2) (lowestStart text f.2)) :
    storedValue text t.1 (hullOf t.2).1 = storedValue text f.1 (lowestStart text f.2) ↔
      t.1.rank = f.1.rank ∧ KeepsLowest text f := by
  have hbase : t.1.rank = f.1.rank → (storedValue text t.1 (hullOf t.2).1 =
      storedValue text f.1 (lowestStart text f.2) ↔ KeepsLowest text f) := by
    intro hrank
    obtain ⟨role, path⟩ := f
    rcases mem_handledFiles hf with hmain | ⟨-, rfl⟩ | ⟨-, rfl⟩ | ⟨i, hi, rfl⟩
    · obtain ⟨rfl, rfl⟩ := Prod.mk.inj hmain
      obtain rfl := taken_program ht hrank
      exact (same_module_iff _).trans (lowest_agree hfile hspans.lowest)
    · obtain ⟨hne, hvalue⟩ := storedValue_libcBase ht hspans hrank
      rw [hvalue]
      exact (same_module_iff _).trans (lowest_agree hfile (libcBaseOf_lowest hne))
    · rw [(storedValue_libcBase ht hspans hrank).2]
      exact iff_of_true rfl trivial
    · obtain rfl := taken_library ht hi hrank
      exact (same_module_iff _).trans (lowest_agree hfile hspans.lowest)
  exact ⟨fun h => have hrank := storedValue_rank hf ht h; ⟨hrank, (hbase hrank).mp h⟩, fun h => (hbase h.1).mpr h.2⟩

end

/-- **When attribution is right.** After a start that ends, with room for every block: every
    address of every mapping resolves to its file exactly when the lines taken for the files are
    separate. -/
theorem attribution_iff (text : List U8) (mainPath : CStr) (junk : Nat → U64 × U64)
    (hdone : (loaderStart (steadyEnv text mainPath junk)).halted = false)
    (hroom : NoneRefused (loaderStart (steadyEnv text mainPath junk)).writes) :
    Attributes text mainPath (vmaLookup (vmaAfter (loaderStart (steadyEnv text mainPath junk)).writes)) ↔
      LinesSeparate text mainPath junk := by
  classical
  unfold Attributes LinesSeparate
  rw [attributedFiles_eq]
  simp only [List.forall_mem_map]
  refine forall₂_congr fun f hf => forall₅_congr fun r hr a hlo hhi => ?_
  have hfile := lowestStart_lowest hr hlo hhi
  have hrank := find?_reverse_rank (P := fun t => Spans t.2 a) (takenRanges_sorted text mainPath junk) f.1.rank
  simp only [decide_eq_true_eq] at hrank
  rw [vmaLookup_loaderStart text mainPath junk hdone hroom, populatedModules_eq, lastCovering_roles,
    Option.map_eq_some_iff, ← hrank]
  have hvalue : ∀ t, (takenRanges text mainPath junk).reverse.find? (fun t => Spans t.2 a) = some t →
      (storedValue text t.1 (hullOf t.2).1 = storedValue text f.1 (lowestStart text f.2) ↔
        t.1.rank = f.1.rank ∧ KeepsLowest text f) := by
    intro t hfind
    have ht := List.mem_reverse.mp (List.mem_of_find?_eq_some hfind)
    exact storedValue_eq_iff hf ht (by simpa using List.find?_some hfind) hfile
  constructor
  · rintro ⟨t, hfind, hfound⟩
    obtain ⟨hrank, hkeeps⟩ := (hvalue t hfind).mp hfound
    exact ⟨hkeeps, t, hfind, hrank⟩
  · rintro ⟨hkeeps, t, hfind, hrank⟩
    exact ⟨t, hfind, (hvalue t hfind).mpr ⟨hrank, hkeeps⟩⟩

/-- A program with libc and libm in one 1 MB block. -/
def packedText : List U8 :=
  ascii "400000-401000 r-xp 0 0:0 1 /bin/app\n7f0000000000-7f0000080000 r-xp 0 0:0 2 /lib/libc.so.6\n" ++
    ascii "7f0000080000-7f00000c0000 r-xp 0 0:0 3 /lib/libm.so.6\n"

/-- The blocks stored: the program's, libc's, and libm's over libc's. -/
def packedWrites : List VmaWrite :=
  [⟨0x400000, 1, 0x400000⟩, ⟨0x7f0000000000, 2, 0x7f0000000000⟩, ⟨0x7f0000000000, 3, 0x7f0000080000⟩]

theorem packed_start :
    (loaderStart (steadyEnv packedText packedPath noJunk)).halted = false ∧
      (loaderStart (steadyEnv packedText packedPath noJunk)).writes = packedWrites := by
  decide +kernel

/-- The first byte of libc resolves to libm. -/
theorem attribution_fails :
    ¬ ∀ (text : List U8) (mainPath : CStr) (junk : Nat → U64 × U64),
      (loaderStart (steadyEnv text mainPath junk)).halted = false →
      NoneRefused (loaderStart (steadyEnv text mainPath junk)).writes →
      Attributes text mainPath (vmaLookup (vmaAfter (loaderStart (steadyEnv text mainPath junk)).writes)) := by
  intro h
  obtain ⟨hroom, hfile, hrange, hmissed⟩ : NoneRefused packedWrites ∧
      (ascii "/lib/libc.so.6", (⟨2, 0x7f0000000000⟩ : VmaValue)) ∈ attributedFiles packedText packedPath ∧
      ((0x7f0000000000, 0x7f0000080000) : U64 × U64) ∈ fileRanges packedText (ascii "/lib/libc.so.6") ∧
      vmaLookup (vmaAfter packedWrites) 0x7f0000000000 ≠ some ⟨2, 0x7f0000000000⟩ := by
    decide +kernel
  have hall := h packedText packedPath noJunk packed_start.1 (by rw [packed_start.2]; exact hroom)
  rw [packed_start.2] at hall
  exact hmissed (hall _ hfile _ hrange 0x7f0000000000 (by decide) (by decide))

theorem spaced_separate : LinesSeparate spacedText packedPath noJunk := by
  obtain ⟨htaken, hfiles, hmain, hlibc, hmainLow, hlibcLow⟩ :
      takenRanges spacedText packedPath noJunk =
          [(.program, [(0x400000, 0x401000)]), (.libc, [(0x7f0000000000, 0x7f0000080000)])] ∧
        handledFiles spacedText packedPath = [(.program, packedPath), (.libc, ascii "/lib/libc.so.6")] ∧
        fileRanges spacedText packedPath = [(0x400000, 0x401000)] ∧
        fileRanges spacedText (ascii "/lib/libc.so.6") = [(0x7f0000000000, 0x7f0000080000)] ∧
        matchingRanges (fgetsLines 512 spacedText) (shortName packedPath) = [(0x400000, 0x401000)] ∧
        libcCandidates spacedText = [0x7f0000000000] := by
    decide +kernel
  have hlowest : ∀ a : U64, Lowest [a] a := by simp [Lowest]
  have hspans : ∀ (lo hi a : U64), lo ≤ a → a < hi → lo ≠ BitVec.allOnes 64 → Spans [(lo, hi)] a := by
    intro lo hi a hlo hhi hne
    have hcovers := VmaModule.covers_of_mem (m := ⟨lo, hi, ⟨0, 0⟩⟩) hlo hhi
    exact ⟨⟨_, List.mem_cons_self, hne, hcovers.1⟩, _, List.mem_cons_self, hcovers.2⟩
  unfold LinesSeparate
  rw [hfiles, htaken]
  intro f hf r hr a hlo hhi
  rw [List.mem_cons, List.mem_singleton] at hf
  rcases hf with rfl | rfl
  · rw [hmain, List.mem_singleton] at hr
    subst hr
    refine ⟨⟨0x400000, ?_, ?_⟩, ⟨_, List.mem_cons_self, rfl, hspans _ _ a hlo hhi (by decide)⟩, ?_⟩
    · rw [fileStarts, hmain]
      exact hlowest _
    · rw [hmainLow]
      exact hlowest _
    · simp only [List.mem_cons, List.not_mem_nil, or_false]
      rintro t (rfl | rfl) hlater
      · cases hlater
      · simp only [Spans, List.mem_singleton, exists_eq_left, vmaBlockShift, BitVec.le_def, BitVec.lt_def,
          BitVec.reduceToNat] at hlo hhi ⊢
        omega
  · rw [hlibc, List.mem_singleton] at hr
    subst hr
    refine ⟨⟨0x7f0000000000, ?_, ?_⟩,
      ⟨_, List.mem_cons_of_mem _ List.mem_cons_self, rfl, hspans _ _ a hlo hhi (by decide)⟩, ?_⟩
    · rw [fileStarts, hlibc]
      exact hlowest _
    · rw [hlibcLow]
      exact hlowest _
    · simp only [List.mem_cons, List.not_mem_nil, or_false]
      rintro t (rfl | rfl) hlater
      · cases hlater
      · exact absurd hlater (lt_irrefl _)

theorem attribution_spaced :
    Attributes spacedText packedPath
      (vmaLookup (vmaAfter (loaderStart (steadyEnv spacedText packedPath noJunk)).writes)) := by
  have hroom : NoneRefused spacedWrites := by decide +kernel
  exact (attribution_iff spacedText packedPath noJunk spaced_start.1 (by rw [spaced_start.2]; exact hroom)).mpr
    spaced_separate

end SentinelStack.Cc
