import SentinelStack.Cc.PolicyKeys
import SentinelStack.Lib.FirstBy

/- The seeds of the call-graph filter (`build_libc_symtab`, `find_sym_by_name` and
   `trace_libc_callgraph` in `loader.c`).

   The symbol table has one entry for each address, under the name of the first
   symbol there (`buildLibcSymtab_perm`), and imports are looked up in it by name. A
   libc has many names for one address. Main result: `seeding_complete_iff` — every
   function an import names is seeded if and only if, of each of them, the name that
   was kept is itself an import or an essential seed, and the lowest of its name, or
   a variant of an import. `alias_not_seeded` is an import whose address is kept
   under another name. -/
namespace SentinelStack.Cc
open SentinelStack.Lib

/-! The symbol table. -/

/-- A symbol that `build_libc_symtab` takes, unless its address is taken. -/
def Symbol.IsCandidate (s : Symbol) : Prop := s.IsFunc ∧ s.value ≠ 0 ∧ s.name ≠ none ∧ s.name ≠ some []

instance (s : Symbol) : Decidable s.IsCandidate := inferInstanceAs (Decidable (_ ∧ _))

/-- The entry it gets. -/
def Symbol.entry (s : Symbol) : LibcSym :=
  ⟨s.value, if s.size = 0 then defaultFuncSize else s.size, strncpyz 128 (s.name.getD [])⟩

/-- The first symbol of each address. -/
def keptSyms (img : LibImage) : List Symbol :=
  firstsBy (·.value) [] (img.symbolTables.flatten.filter (·.IsCandidate))

theorem addFuncSym_eq (syms : List LibcSym) (s : Symbol) (hroom : syms.length < maxLibcSyms) :
    addFuncSym syms s = if s.IsCandidate ∧ s.value ∉ syms.map (·.addr) then syms ++ [s.entry] else syms := by
  have hany : syms.any (·.addr = s.value) = true ↔ s.value ∈ syms.map (·.addr) := by
    rw [List.any_eq_true, List.mem_map]
    simp only [decide_eq_true_eq]
  obtain ⟨name, value, size, info⟩ := s
  cases name with
  | none => simp [addFuncSym, Symbol.IsCandidate]
  | some name => simp [addFuncSym, Symbol.IsCandidate, Symbol.entry, hroom, hany, and_assoc]

theorem addFuncSym_full {syms : List LibcSym} (s : Symbol) (hfull : ¬ syms.length < maxLibcSyms) :
    addFuncSym syms s = syms := by
  rw [addFuncSym]
  cases s.name with
  | none => rfl
  | some name => exact if_neg fun htaken => hfull htaken.1

theorem addFuncSym_skipped {syms : List LibcSym} {s : Symbol}
    (h : ¬ (s.IsCandidate ∧ s.value ∉ syms.map (·.addr))) : addFuncSym syms s = syms := by
  by_cases hroom : syms.length < maxLibcSyms
  · rw [addFuncSym_eq syms s hroom, if_neg h]
  · exact addFuncSym_full s hroom

/-- The table while it is built, where it does not fill up. -/
theorem foldl_addFuncSym (l : List Symbol) (syms : List LibcSym) (before : List U64)
    (hbefore : ∀ a, a ∈ before ↔ a ∈ syms.map (·.addr))
    (hroom : syms.length + (firstsBy (·.value) before (l.filter (·.IsCandidate))).length ≤ maxLibcSyms) :
    l.foldl addFuncSym syms = syms ++ (firstsBy (·.value) before (l.filter (·.IsCandidate))).map (·.entry) := by
  induction l generalizing syms before with
  | nil => exact (List.append_nil _).symm
  | cons s rest ih =>
    rw [List.foldl_cons]
    rw [List.filter_cons] at hroom ⊢
    by_cases hcandidate : s.IsCandidate
    · rw [if_pos (decide_eq_true hcandidate), firstsBy] at hroom ⊢
      by_cases hseen : s.value ∈ before
      · -- the address is in the table already
        rw [if_pos hseen] at hroom ⊢
        have hold : s.value ∈ syms.map (·.addr) := (hbefore s.value).mp hseen
        rw [addFuncSym_skipped fun h => h.2 hold]
        refine ih syms (before ++ [s.value]) ?_ hroom
        intro a
        rw [List.mem_append, List.mem_singleton, hbefore]
        refine ⟨?_, Or.inl⟩
        rintro (ha | rfl)
        · exact ha
        · exact hold
      · rw [if_neg hseen] at hroom ⊢
        rw [List.length_cons] at hroom
        have hnew : s.value ∉ syms.map (·.addr) := fun h => hseen ((hbefore s.value).mpr h)
        rw [addFuncSym_eq syms s (by omega), if_pos ⟨hcandidate, hnew⟩, List.map_cons,
          List.append_cons syms s.entry (List.map _ _)]
        refine ih (syms ++ [s.entry]) (before ++ [s.value]) ?_ ?_
        · intro a
          rw [List.mem_append, List.map_append, List.mem_append, hbefore]
          rfl
        · rw [List.length_append, List.length_singleton]
          omega
    · rw [if_neg (by simp [hcandidate])] at hroom ⊢
      rw [addFuncSym_skipped fun h => hcandidate h.1]
      exact ih syms before hbefore hroom

/-- **The table** holds the first symbol of each address. -/
theorem buildLibcSymtab_perm {img : LibImage} (hfit : (keptSyms img).length ≤ maxLibcSyms) :
    (buildLibcSymtab img).Perm ((keptSyms img).map (·.entry)) := by
  have hbuilt : img.symbolTables.flatten.foldl addFuncSym [] = (keptSyms img).map (·.entry) := by
    refine foldl_addFuncSym _ [] [] (fun a => Iff.rfl) ?_
    rw [List.length_nil, Nat.zero_add]
    exact hfit
  rw [buildLibcSymtab, hbuilt]
  exact List.mergeSort_perm _ _

theorem addFuncSym_nodup {syms : List LibcSym} (h : (syms.map (·.addr)).Nodup) (s : Symbol) :
    ((addFuncSym syms s).map (·.addr)).Nodup := by
  by_cases hroom : syms.length < maxLibcSyms
  · rw [addFuncSym_eq syms s hroom]
    split
    next hnew =>
      rw [List.map_append, List.nodup_append_comm]
      exact List.nodup_cons.mpr ⟨hnew.2, h⟩
    · exact h
  · rw [addFuncSym_full s hroom]
    exact h

/-- Its addresses rise. -/
theorem buildLibcSymtab_sorted (img : LibImage) : (buildLibcSymtab img).Pairwise fun a b => a.addr < b.addr := by
  have hbuilt : ((run addFuncSym [] img.symbolTables.flatten).map (·.addr)).Nodup := by
    apply run_inv (I := fun syms : List LibcSym => (syms.map LibcSym.addr).Nodup)
    · exact fun _ s h => addFuncSym_nodup h s
    · exact List.nodup_nil
  have hnodup : ((buildLibcSymtab img).map (·.addr)).Nodup :=
    ((List.mergeSort_perm _ _).map _).nodup_iff.mpr hbuilt
  have hsorted : (buildLibcSymtab img).Pairwise fun a b => decide (a.addr ≤ b.addr) = true := by
    apply List.pairwise_mergeSort
    · intro a b c hab hbc
      exact decide_eq_true (BitVec.le_trans (of_decide_eq_true hab) (of_decide_eq_true hbc))
    · intro a b
      simpa using BitVec.le_total a.addr b.addr
  refine hsorted.imp₂ ?_ (List.pairwise_map.mp hnodup)
  intro a b hle hne
  exact BitVec.lt_of_le_ne (of_decide_eq_true hle) hne

/-! What is seeded. -/

/-- The entry a name finds is the lowest of that name. -/
theorem findSymByName_eq_some_iff {syms : List LibcSym} (hsorted : syms.Pairwise fun a b => a.addr < b.addr)
    {i : Nat} {e : LibcSym} (hi : syms[i]? = some e) (name : CStr) :
    findSymByName syms name = some i ↔ e.name = name ∧ ∀ e' ∈ syms, e'.name = name → e.addr ≤ e'.addr := by
  obtain ⟨hlt, rfl⟩ := List.getElem?_eq_some_iff.mp hi
  rw [List.pairwise_iff_getElem] at hsorted
  rw [findSymByName, List.findIdx?_eq_some_iff_getElem]
  simp only [decide_eq_true_eq]
  constructor
  · rintro ⟨_, hname, hfirst⟩
    refine ⟨hname, ?_⟩
    intro e' he' hname'
    obtain ⟨j, hj, rfl⟩ := List.getElem_of_mem he'
    rcases lt_trichotomy i j with hij | rfl | hji
    · exact BitVec.le_of_lt (hsorted i j hlt hj hij)
    · exact BitVec.le_refl _
    · exact absurd hname' (hfirst j hji)
  · rintro ⟨hname, hleast⟩
    refine ⟨hlt, hname, ?_⟩
    intro j hji hname'
    have hj : j < syms.length := by omega
    exact absurd (hsorted j i hj hlt hji) (BitVec.not_lt.mpr (hleast _ (List.getElem_mem hj) hname'))

/-- The function at the address is a seed of the search. -/
def SeededAt (syms : List LibcSym) (t : CallgraphTrace) (a : U64) : Prop :=
  ∃ i ∈ t.seeded, ∃ e, syms[i]? = some e ∧ e.addr = a

instance (syms : List LibcSym) (t : CallgraphTrace) (a : U64) : Decidable (SeededAt syms t a) :=
  decidable_of_iff (t.seeded.any fun i => (syms[i]?).any fun e => e.addr = a) (by simp [SeededAt, Option.any_eq_true])

/-- The name a symbol is kept under leads to it: the lowest of a name that is looked up, or a
    variant of an import. -/
def FoundByName (img : LibImage) (imports : List CStr) (k : Symbol) : Prop :=
  (k.entry.name ∈ imports ++ essentialSeeds ∧ ∀ k' ∈ keptSyms img, k'.entry.name = k.entry.name → k.value ≤ k'.value) ∨
    ∃ imp ∈ imports, 2 ≤ (importBase imp).length ∧ IsVariant (importBase imp) k.entry.name

instance (img : LibImage) (imports : List CStr) (k : Symbol) : Decidable (FoundByName img imports k) :=
  inferInstanceAs (Decidable (_ ∨ _))

/-- The search of a libc's file. -/
def libcTrace (allocated : Bool) (img : LibImage) (imports : List CStr) (maxSites : Nat) : CallgraphTrace :=
  traceLibcCallgraph allocated (buildLibcSymtab img) (loadExecSections img 16) imports maxSites

theorem mem_variantsOf {syms : List LibcSym} {i : Nat} {e : LibcSym} (hi : syms[i]? = some e) (imp : CStr) :
    i ∈ variantsOf syms imp ↔ 2 ≤ (importBase imp).length ∧ IsVariant (importBase imp) e.name := by
  have hlt := (List.getElem?_eq_some_iff.mp hi).1
  rw [variantsOf]
  split
  next hshort =>
    refine iff_of_false List.not_mem_nil ?_
    rintro ⟨hlong, -⟩
    omega
  next hlong =>
    rw [List.mem_filter, List.mem_range, hi]
    simp only [Option.any_some, decide_eq_true_eq]
    exact ⟨fun h => ⟨by omega, h.2⟩, fun h => ⟨hlt, h.2⟩⟩

theorem mem_seedTargets {img : LibImage} (hfit : (keptSyms img).length ≤ maxLibcSyms) {imports : List CStr} {i : Nat}
    {k : Symbol} (hi : (buildLibcSymtab img)[i]? = some k.entry) :
    i ∈ seedTargets (buildLibcSymtab img) imports essentialSeeds ↔ FoundByName img imports k := by
  have hleast : (∀ e' ∈ buildLibcSymtab img, e'.name = k.entry.name → k.entry.addr ≤ e'.addr) ↔
      ∀ k' ∈ keptSyms img, k'.entry.name = k.entry.name → k.value ≤ k'.value := by
    simp only [(buildLibcSymtab_perm hfit).mem_iff, List.forall_mem_map]
    rfl
  rw [seedTargets, List.mem_append, FoundByName, List.mem_flatMap, List.mem_flatMap, ← hleast]
  simp only [mem_variantsOf hi, Option.mem_toList]
  apply or_congr_left
  constructor
  · rintro ⟨name, hname, hfound⟩
    obtain ⟨rfl, hlow⟩ := (findSymByName_eq_some_iff (buildLibcSymtab_sorted img) hi name).mp hfound
    exact ⟨hname, hlow⟩
  · rintro ⟨hname, hlow⟩
    exact ⟨k.entry.name, hname, (findSymByName_eq_some_iff (buildLibcSymtab_sorted img) hi _).mpr ⟨rfl, hlow⟩⟩

/-- **The seeds** are the kept symbols whose name leads to them. -/
theorem seededAt_iff {allocated : Bool} {img : LibImage} {imports : List CStr} {maxSites : Nat}
    (hfit : (keptSyms img).length ≤ maxLibcSyms)
    (hroom : (libcTrace allocated img imports maxSites).seeded.length < maxReachable) (a : U64) :
    SeededAt (buildLibcSymtab img) (libcTrace allocated img imports maxSites) a ↔
      (allocated = true ∧ loadExecSections img 16 ≠ []) ∧
        ∃ k ∈ keptSyms img, k.value = a ∧ FoundByName img imports k := by
  rw [libcTrace, traceLibcCallgraph] at hroom ⊢
  have hseeded := mem_seeded hroom
  constructor
  · rintro ⟨i, hi, e, he, rfl⟩
    obtain ⟨hmade, htarget⟩ := (hseeded i).mp hi
    obtain ⟨k, hk, rfl⟩ := List.mem_map.mp ((buildLibcSymtab_perm hfit).mem_iff.mp (List.mem_of_getElem? he))
    exact ⟨hmade, k, hk, rfl, (mem_seedTargets hfit he).mp htarget⟩
  · rintro ⟨hmade, k, hk, rfl, hfound⟩
    obtain ⟨i, hi⟩ := List.mem_iff_getElem?.mp
      ((buildLibcSymtab_perm hfit).mem_iff.mpr (List.mem_map_of_mem hk))
    exact ⟨i, (hseeded i).mpr ⟨hmade, (mem_seedTargets hfit hi).mpr hfound⟩, k.entry, hi, rfl⟩

/-! Completeness. -/

/-- The symbol defines the function of that name. -/
def Symbol.Defines (s : Symbol) (name : CStr) : Prop := s.name = some name ∧ s.IsFunc ∧ s.value ≠ 0

instance (s : Symbol) (name : CStr) : Decidable (s.Defines name) := inferInstanceAs (Decidable (_ ∧ _))

/-- **Seeding.** The function of every import is seeded, if and only if the search runs and each of
    these functions is kept under a name that leads to it. -/
theorem seeding_complete_iff (allocated : Bool) (img : LibImage) (imports : List CStr) (maxSites : Nat)
    (hfit : (keptSyms img).length ≤ maxLibcSyms)
    (hroom : (libcTrace allocated img imports maxSites).seeded.length < maxReachable) :
    (∀ imp ∈ imports, ∀ s ∈ img.symbolTables.flatten, s.Defines imp →
        SeededAt (buildLibcSymtab img) (libcTrace allocated img imports maxSites) s.value) ↔
      ∀ imp ∈ imports, ∀ s ∈ img.symbolTables.flatten, s.Defines imp →
        (allocated = true ∧ loadExecSections img 16 ≠ []) ∧
          ∃ k ∈ keptSyms img, k.value = s.value ∧ FoundByName img imports k := by
  simp only [seededAt_iff hfit hroom]

def libcWith (table : List Symbol) : LibImage where
  phdrs := [⟨true, 0⟩]
  hasShstrtab := true
  sections := []
  symbolTables := [table]
  execSections := [⟨0x1000, [0x90, 0x0f, 0x05, 0xc3], by decide⟩]

def putsSym : Symbol := ⟨some (ascii "puts"), 0x1000, 4, 0x12⟩

theorem seeding_complete_iff_puts :
    (keptSyms (libcWith [putsSym])).length ≤ maxLibcSyms ∧
      (libcTrace true (libcWith [putsSym]) [ascii "puts"] 16).seeded.length < maxReachable ∧
      SeededAt (buildLibcSymtab (libcWith [putsSym])) (libcTrace true (libcWith [putsSym]) [ascii "puts"] 16) 0x1000 := by
  have hfit : (keptSyms (libcWith [putsSym])).length ≤ maxLibcSyms := by decide +kernel
  have hroom : (libcTrace true (libcWith [putsSym]) [ascii "puts"] 16).seeded.length < maxReachable := by
    decide +kernel
  refine ⟨hfit, hroom, ?_⟩
  refine (seeding_complete_iff true (libcWith [putsSym]) [ascii "puts"] 16 hfit hroom).mpr ?_ (ascii "puts")
    List.mem_cons_self putsSym List.mem_cons_self (by decide +kernel)
  decide +kernel

/-- The alias, listed first. -/
def ioPutsSym : Symbol := ⟨some (ascii "_IO_puts"), 0x1000, 4, 0x12⟩

/-- **An alias hides an import.** `puts` and `_IO_puts` are one function, kept under the name that
    comes first. The import of the other name finds nothing. -/
theorem alias_not_seeded :
    buildLibcSymtab (libcWith [ioPutsSym, putsSym]) = [⟨0x1000, 4, ascii "_IO_puts"⟩] ∧ putsSym.Defines (ascii "puts") ∧
      libcTrace true (libcWith [ioPutsSym, putsSym]) [ascii "puts"] 16 = ⟨[], [], []⟩ := by
  decide +kernel

/-- Where each function has one name and each name one function, nothing is missed. -/
theorem seeded_of_unaliased {img : LibImage} {imports : List CStr} {maxSites : Nat}
    (hfit : (keptSyms img).length ≤ maxLibcSyms) (hsecs : loadExecSections img 16 ≠ [])
    (hroom : (libcTrace true img imports maxSites).seeded.length < maxReachable)
    (hone : ∀ s ∈ img.symbolTables.flatten, ∀ s' ∈ img.symbolTables.flatten, s.IsCandidate → s'.IsCandidate →
      (s.entry.name = s'.entry.name ↔ s.value = s'.value))
    {imp : CStr} (himp : imp ∈ imports) (hshort : imp.length < 128) {s : Symbol}
    (hs : s ∈ img.symbolTables.flatten) (hdefines : s.Defines imp) (hname : imp ≠ []) :
    SeededAt (buildLibcSymtab img) (libcTrace true img imports maxSites) s.value := by
  have hcandidate : s.IsCandidate := by
    refine ⟨hdefines.2.1, hdefines.2.2, ?_, ?_⟩
    · rw [hdefines.1]
      exact Option.some_ne_none imp
    · rw [hdefines.1]
      exact fun h => hname (Option.some.inj h)
  have hentry : s.entry.name = imp := by
    rw [Symbol.entry, hdefines.1]
    have hlen : imp.length ≤ 128 - 1 := by omega
    exact List.take_of_length_le hlen
  have hkept : ∀ k ∈ keptSyms img, k ∈ img.symbolTables.flatten ∧ k.IsCandidate := by
    intro k hk
    obtain ⟨hmem, hcand⟩ := List.mem_filter.mp (mem_of_mem_firstsBy hk).1
    exact ⟨hmem, of_decide_eq_true hcand⟩
  have haddr : s.value ∈ (keptSyms img).map (·.value) := by
    refine mem_keys_firstsBy.mpr ⟨?_, List.not_mem_nil⟩
    exact List.mem_map_of_mem (List.mem_filter.mpr ⟨hs, decide_eq_true hcandidate⟩)
  obtain ⟨k, hk, hvalue⟩ := List.mem_map.mp haddr
  have hsame : k.entry.name = imp := by
    rw [← hentry]
    exact (hone k (hkept k hk).1 s hs (hkept k hk).2 hcandidate).mpr hvalue
  refine (seededAt_iff hfit hroom s.value).mpr ⟨⟨rfl, hsecs⟩, k, hk, hvalue, Or.inl ⟨?_, ?_⟩⟩
  · rw [hsame]
    exact List.mem_append_left _ himp
  · intro k' hk' hname'
    rw [(hone k' (hkept k' hk').1 k (hkept k hk).1 (hkept k' hk').2 (hkept k hk).2).mp hname']
    exact BitVec.le_refl _

end SentinelStack.Cc
