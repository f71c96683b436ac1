import SentinelStack.Lib.Bisect
import SentinelStack.Cc.Seeding

/- The lookup of the function at an address (`find_sym_at_addr` in `loader.c`) in the
   symbol table of a library, whose functions may overlap and nest.

   The search is a binary search for the address that stops at a function containing
   it; the places it looks at depend on how many functions begin at or below the
   address and on nothing else (`bsearchSym_eq`). The scan behind it looks at the last
   of these again (`nearestSym_visited`). Main result: `find_sym_at_addr_iff` — a
   function that contains the address is found exactly if one of those at the places
   looked at does. `enclosing_missed` is a function hidden by one nested in it. -/
namespace SentinelStack.Cc
open SentinelStack.Lib

/-- The function's bytes include the address. -/
def LibcSym.Contains (sym : LibcSym) (addr : U64) : Prop :=
  sym.addr.toNat ≤ addr.toNat ∧ addr.toNat < sym.addr.toNat + sym.size.toNat

instance (sym : LibcSym) (addr : U64) : Decidable (sym.Contains addr) := inferInstanceAs (Decidable (_ ∧ _))

/-- The end of the function is a 64-bit address. -/
def LibcSym.Ends (sym : LibcSym) : Prop := sym.addr.toNat + sym.size.toNat < 2 ^ 64

instance (sym : LibcSym) : Decidable sym.Ends := inferInstanceAs (Decidable (_ < _))

/-- How many functions begin at or below the address. -/
def rankOf (syms : List LibcSym) (addr : U64) : Nat := syms.countP fun sym => sym.addr ≤ addr

/-- The places the lookup looks at: those of the binary search, and the one before the last of them
    when that begins at the address itself. -/
def Visited (syms : List LibcSym) (addr : U64) (i : Nat) : Prop :=
  i ∈ probes (rankOf syms addr) syms.length 0 (syms.length - 1) ∨
    (i + 2 = rankOf syms addr ∧ (syms[i + 1]?).any (·.addr == addr) = true)

/-- The turn of the binary search at a place. -/
def turnAt (syms : List LibcSym) (addr : U64) (i : Nat) : Turn :=
  (syms[i]?).elim .left fun sym =>
    if addr < sym.addr then .left else if addr ≥ sym.addr + sym.size then .right else .here

section Search

variable {syms : List LibcSym} {addr : U64}

/-- The 64-bit test of the source. -/
theorem contains_ends_iff (sym : LibcSym) (addr : U64) :
    (sym.addr ≤ addr ∧ addr < sym.addr + sym.size) ↔ sym.Contains addr ∧ sym.Ends := by
  have hlt := addr.isLt
  have hbase := sym.addr.isLt
  have hsize := sym.size.isLt
  rw [LibcSym.Contains, LibcSym.Ends, BitVec.le_def, BitVec.lt_def, BitVec.toNat_add]
  omega

theorem turnAt_here_iff {i : Nat} {sym : LibcSym} (hi : syms[i]? = some sym) :
    turnAt syms addr i = .here ↔ sym.Contains addr ∧ sym.Ends := by
  rw [← contains_ends_iff, turnAt, hi, Option.elim_some]
  split
  next hlt => exact iff_of_false (by decide) fun h => BitVec.not_le.mpr hlt h.1
  next hge =>
    split
    next hend => exact iff_of_false (by decide) fun h => BitVec.not_lt.mpr hend h.2
    next hend => exact iff_of_true rfl ⟨BitVec.not_lt.mp hge, BitVec.not_le.mp hend⟩

theorem exists_of_turnAt_here {i : Nat} (h : turnAt syms addr i = .here) :
    ∃ sym, syms[i]? = some sym ∧ sym.Contains addr ∧ sym.Ends := by
  cases hi : syms[i]? with
  | none =>
    rw [turnAt, hi] at h
    cases h
  | some sym => exact ⟨sym, rfl, (turnAt_here_iff hi).mp h⟩

variable (hsorted : syms.Pairwise fun a b => a.addr < b.addr)
include hsorted

theorem le_iff_lt_rank {i : Nat} {sym : LibcSym} (hi : syms[i]? = some sym) :
    sym.addr ≤ addr ↔ i < rankOf syms addr := by
  have hmono : syms.Pairwise fun a b => decide (b.addr ≤ addr) = true → decide (a.addr ≤ addr) = true :=
    hsorted.imp fun hlt hle => decide_eq_true (BitVec.le_trans (BitVec.le_of_lt hlt) (of_decide_eq_true hle))
  rw [rankOf, ← lt_countP_iff hmono hi, decide_eq_true_iff]

/-- The search turns towards the rank. -/
theorem turnAt_left_iff (i : Nat) : turnAt syms addr i = .left ↔ rankOf syms addr ≤ i := by
  cases hi : syms[i]? with
  | none =>
    have hlen := List.getElem?_eq_none_iff.mp hi
    have hrank : rankOf syms addr ≤ syms.length := List.countP_le_length
    rw [turnAt, hi]
    exact iff_of_true rfl (by omega)
  | some sym =>
    rw [← Nat.not_lt, ← le_iff_lt_rank hsorted hi, BitVec.not_le, turnAt, hi, Option.elim_some]
    split
    next hlt => exact iff_of_true rfl hlt
    next hge =>
      refine iff_of_false ?_ hge
      split
      · decide
      · decide

omit hsorted in
theorem bsearchSym_eq_bisect (fuel : Nat) {lo hi : Int} (hlo : 0 ≤ lo) (hhi : hi < syms.length) :
    bsearchSym syms addr fuel lo hi = bisect (turnAt syms addr) fuel lo hi := by
  induction fuel generalizing lo hi with
  | zero => rfl
  | succ fuel ih =>
    rw [bsearchSym, bisect]
    by_cases hle : lo ≤ hi
    · have hmid : ((lo + hi) / 2).toNat < syms.length := by omega
      have hget := List.getElem?_eq_getElem hmid
      rw [if_pos hle, if_pos hle, turnAt, hget, Option.elim_some]
      dsimp only
      rw [hget]
      dsimp only
      by_cases hleft : addr < (syms[((lo + hi) / 2).toNat]).addr
      · rw [if_pos hleft, if_pos hleft]
        exact ih hlo (by omega)
      · rw [if_neg hleft, if_neg hleft]
        by_cases hright : addr ≥ (syms[((lo + hi) / 2).toNat]).addr + (syms[((lo + hi) / 2).toNat]).size
        · rw [if_pos hright, if_pos hright]
          exact ih (by omega) hhi
        · rw [if_neg hright, if_neg hright]
    · rw [if_neg hle, if_neg hle]

/-- **The binary search** looks at places that depend on the rank alone, and returns the first
    that contains the address. -/
theorem bsearchSym_eq :
    bsearchSym syms addr syms.length 0 (syms.length - 1) =
      (probes (rankOf syms addr) syms.length 0 (syms.length - 1)).find? fun i => turnAt syms addr i = .here := by
  rw [bsearchSym_eq_bisect _ (Int.le_refl 0) (by omega), bisect_eq_find (turnAt_left_iff hsorted)]

/-! The scan from the end. -/

omit hsorted in
theorem nearestSym_succ {i : Nat} {sym : LibcSym} (hi : syms[i]? = some sym) :
    nearestSym syms addr (i + 1) =
      if turnAt syms addr i = .here then some i else if sym.addr < addr then none else nearestSym syms addr i := by
  rw [nearestSym, hi]
  dsimp only
  rw [if_congr ((contains_ends_iff sym addr).trans (turnAt_here_iff hi).symm) rfl rfl]

/-- Functions above the address are passed over. -/
theorem nearestSym_above {n : Nat} (hn : n ≤ syms.length) (hrank : rankOf syms addr ≤ n) :
    nearestSym syms addr n = nearestSym syms addr (rankOf syms addr) := by
  induction n with
  | zero => rw [Nat.le_zero.mp hrank]
  | succ n ih =>
    rcases Nat.lt_or_eq_of_le hrank with hlt | heq
    · have hle : rankOf syms addr ≤ n := Nat.le_of_lt_succ hlt
      have hget := List.getElem?_eq_getElem (l := syms) (i := n) (by omega)
      have hleft := (turnAt_left_iff hsorted n).mpr hle
      have habove : ¬ (syms[n]).addr ≤ addr := by
        rw [le_iff_lt_rank hsorted hget]
        omega
      rw [nearestSym_succ hget, hleft, if_neg (by decide), if_neg fun h => habove (BitVec.le_of_lt h)]
      exact ih (by omega) hle
    · rw [heq]

omit hsorted in
/-- A function that begins below the address is the last that is looked at. -/
theorem nearestSym_below {i : Nat} {sym : LibcSym} (hi : syms[i]? = some sym) (hbelow : sym.addr < addr) :
    nearestSym syms addr (i + 1) = if turnAt syms addr i = .here then some i else none := by
  rw [nearestSym_succ hi, if_pos hbelow]

/-- The function before the last that begins at or below the address begins below it. -/
theorem lt_of_before_rank {i : Nat} {sym : LibcSym} (hi : syms[i]? = some sym) (hrank : i + 2 = rankOf syms addr) :
    sym.addr < addr := by
  have hle : rankOf syms addr ≤ syms.length := List.countP_le_length
  have hlast : (syms[i + 1]).addr ≤ addr :=
    (le_iff_lt_rank hsorted (List.getElem?_eq_getElem (by omega))).mpr (by omega)
  have hrise := List.pairwise_iff_getElem.mp hsorted i (i + 1) (by omega) (by omega) (Nat.lt_succ_self i)
  rw [List.getElem?_eq_getElem (by omega), Option.some.injEq] at hi
  rw [hi, BitVec.lt_def] at hrise
  rw [BitVec.le_def] at hlast
  exact Nat.lt_of_lt_of_le hrise hlast

/-- The scan stops at the last function that begins at or below the address, or at the one before
    if that begins at the address. -/
theorem nearestSym_visited {i : Nat} (h : nearestSym syms addr syms.length = some i) :
    turnAt syms addr i = .here ∧
      (i + 1 = rankOf syms addr ∨ (i + 2 = rankOf syms addr ∧ (syms[i + 1]?).any (·.addr == addr) = true)) := by
  have hle : rankOf syms addr ≤ syms.length := List.countP_le_length
  rw [nearestSym_above hsorted (Nat.le_refl _) hle] at h
  cases hrank : rankOf syms addr with
  | zero =>
    rw [hrank] at h
    cases h
  | succ q =>
    have hget := List.getElem?_eq_getElem (l := syms) (i := q) (by omega)
    rw [hrank, nearestSym_succ hget] at h
    split at h
    next hhere =>
      cases h
      exact ⟨hhere, Or.inl rfl⟩
    next =>
      split at h
      · cases h
      next hnot =>
        have hbelow : (syms[q]).addr ≤ addr := (le_iff_lt_rank hsorted hget).mpr (by omega)
        have heq : (syms[q]).addr = addr := BitVec.le_antisymm hbelow (BitVec.not_lt.mp hnot)
        cases q with
        | zero => cases h
        | succ r =>
          have hget' := List.getElem?_eq_getElem (l := syms) (i := r) (by omega)
          rw [nearestSym_below hget' (lt_of_before_rank hsorted hget' hrank.symm), Option.ite_none_right_eq_some] at h
          cases h.2
          refine ⟨h.1, Or.inr ⟨rfl, ?_⟩⟩
          rw [hget, Option.any_some, heq, beq_self_eq_true]

/-- The function before one that begins at the address is looked at. -/
theorem nearestSym_before {i : Nat} (hrank : i + 2 = rankOf syms addr)
    (hbegins : (syms[i + 1]?).any (·.addr == addr) = true) (hhere : turnAt syms addr i = .here) :
    (nearestSym syms addr syms.length).isSome = true := by
  have hle : rankOf syms addr ≤ syms.length := List.countP_le_length
  have hget := List.getElem?_eq_getElem (l := syms) (i := i + 1) (by omega)
  have hget' := List.getElem?_eq_getElem (l := syms) (i := i) (by omega)
  rw [hget, Option.any_some, beq_iff_eq] at hbegins
  rw [nearestSym_above hsorted (Nat.le_refl _) hle, ← hrank, nearestSym_succ hget, hbegins,
    nearestSym_below hget' (lt_of_before_rank hsorted hget' hrank), if_pos hhere]
  split
  · rfl
  · rw [if_neg (BitVec.lt_irrefl _)]
    rfl

/-! The lookup. -/

/-- What is found contains the address, and is at a place that is looked at. -/
theorem findSymAtAddr_visited {i : Nat} (h : findSymAtAddr syms addr = some i) :
    turnAt syms addr i = .here ∧ Visited syms addr i := by
  rcases Option.or_eq_some_iff.mp h with hsearch | ⟨-, hscan⟩
  · rw [bsearchSym_eq hsorted] at hsearch
    have hhere := List.find?_some hsearch
    exact ⟨of_decide_eq_true hhere, Or.inl (List.mem_of_find?_eq_some hsearch)⟩
  · obtain ⟨hhere, hlast | hbefore⟩ := nearestSym_visited hsorted hscan
    · have hle : rankOf syms addr ≤ syms.length := List.countP_le_length
      have hmem := last_mem_probes (rankOf syms addr) syms.length 0 (syms.length - 1) (Int.le_refl 0) (by omega)
        (by omega) (by omega)
      rw [← hlast, Nat.add_sub_cancel] at hmem
      exact ⟨hhere, Or.inl (hlast ▸ hmem)⟩
    · exact ⟨hhere, Or.inr hbefore⟩

theorem findSymAtAddr_isSome {i : Nat} (hvisited : Visited syms addr i) (hhere : turnAt syms addr i = .here) :
    (findSymAtAddr syms addr).isSome = true := by
  rw [findSymAtAddr, Option.isSome_or, Bool.or_eq_true]
  rcases hvisited with hmem | ⟨hrank, hbegins⟩
  · left
    rw [bsearchSym_eq hsorted, List.find?_isSome]
    exact ⟨i, hmem, decide_eq_true hhere⟩
  · exact Or.inr (nearestSym_before hsorted hrank hbegins hhere)

/-- With a function that contains the address at a place looked at, one is found, and else none. -/
theorem findSymAtAddr_contains_iff :
    (∃ i sym, findSymAtAddr syms addr = some i ∧ syms[i]? = some sym ∧ sym.Contains addr) ↔
      ∃ i sym, syms[i]? = some sym ∧ Visited syms addr i ∧ sym.Contains addr ∧ sym.Ends := by
  constructor
  · rintro ⟨i, -, hfound, -, -⟩
    obtain ⟨hhere, hvisited⟩ := findSymAtAddr_visited hsorted hfound
    obtain ⟨sym, hget, hcontains, hends⟩ := exists_of_turnAt_here hhere
    exact ⟨i, sym, hget, hvisited, hcontains, hends⟩
  · rintro ⟨i, sym, hget, hvisited, hcontains⟩
    have hsome := findSymAtAddr_isSome hsorted hvisited ((turnAt_here_iff hget).mpr hcontains)
    obtain ⟨j, hfound⟩ := Option.isSome_iff_exists.mp hsome
    obtain ⟨sym', hget', hcontains', -⟩ := exists_of_turnAt_here (findSymAtAddr_visited hsorted hfound).1
    exact ⟨j, sym', hfound, hget', hcontains'⟩

end Search

/-- **Which enclosing functions are found.** For every library and every address, the lookup in its
    symbol table returns a function that contains the address if and only if there is one,
    exactly if, where there is one, there is one at a place that is looked at, with an end
    below 2^64. -/
theorem find_sym_at_addr_iff (img : LibImage) (addr : U64) :
    ((∃ i sym, findSymAtAddr (buildLibcSymtab img) addr = some i ∧ (buildLibcSymtab img)[i]? = some sym ∧
        sym.Contains addr) ↔ ∃ sym ∈ buildLibcSymtab img, sym.Contains addr) ↔
      ((∃ sym ∈ buildLibcSymtab img, sym.Contains addr) →
        ∃ i sym, (buildLibcSymtab img)[i]? = some sym ∧ Visited (buildLibcSymtab img) addr i ∧
          sym.Contains addr ∧ sym.Ends) := by
  rw [findSymAtAddr_contains_iff (buildLibcSymtab_sorted img)]
  constructor
  · exact fun h => h.mpr
  · intro h
    refine ⟨?_, h⟩
    rintro ⟨i, sym, hget, -, hcontains, -⟩
    exact ⟨sym, List.mem_of_getElem? hget, hcontains⟩

/-- A libc with a function from `0x1000` to `0x1100`, one nested in it at `0x1010`, and one behind. -/
def nestedLibc : LibImage :=
  libcWith [⟨some (ascii "outer"), 0x1000, 0x100, 0x12⟩, ⟨some (ascii "inner"), 0x1010, 0x10, 0x12⟩,
    ⟨some (ascii "next"), 0x2000, 0x10, 0x12⟩]

theorem buildLibcSymtab_nested :
    buildLibcSymtab nestedLibc =
      [⟨0x1000, 0x100, ascii "outer"⟩, ⟨0x1010, 0x10, ascii "inner"⟩, ⟨0x2000, 0x10, ascii "next"⟩] := by
  have hbuilt : nestedLibc.symbolTables.flatten.foldl addFuncSym [] =
      [⟨0x1000, 0x100, ascii "outer"⟩, ⟨0x1010, 0x10, ascii "inner"⟩, ⟨0x2000, 0x10, ascii "next"⟩] := by
    decide +kernel
  rw [buildLibcSymtab, hbuilt]
  exact List.mergeSort_of_pairwise (by decide)

/-- The search turns right at the nested function, and the scan stops there. -/
theorem enclosing_missed :
    (∃ sym ∈ buildLibcSymtab nestedLibc, sym.name = ascii "outer" ∧ sym.Contains 0x1050) ∧
      findSymAtAddr (buildLibcSymtab nestedLibc) 0x1050 = none := by
  rw [buildLibcSymtab_nested]
  exact ⟨⟨_, List.mem_cons_self, rfl, by decide⟩, by decide⟩

/-! Tables without nesting. -/

section Disjoint

variable {syms : List LibcSym} (hsorted : syms.Pairwise fun a b => a.addr < b.addr)
  (hdisjoint : syms.Pairwise fun a b => a.addr.toNat + a.size.toNat ≤ b.addr.toNat) {addr : U64}
include hdisjoint

/-- Only one of them contains an address. -/
theorem contains_unique {i j : Nat} {sym sym' : LibcSym} (hi : syms[i]? = some sym) (hj : syms[j]? = some sym')
    (hcontains : sym.Contains addr) (hcontains' : sym'.Contains addr) : i = j := by
  obtain ⟨hilt, rfl⟩ := List.getElem?_eq_some_iff.mp hi
  obtain ⟨hjlt, rfl⟩ := List.getElem?_eq_some_iff.mp hj
  rw [List.pairwise_iff_getElem] at hdisjoint
  rcases Nat.lt_trichotomy i j with hlt | heq | hgt
  · have hapart := hdisjoint i j hilt hjlt hlt
    have hlo := hcontains'.1
    have hhi := hcontains.2
    omega
  · exact heq
  · have hapart := hdisjoint j i hjlt hilt hgt
    have hlo := hcontains.1
    have hhi := hcontains'.2
    omega

include hsorted

/-- It is the last that begins at or below the address. -/
theorem rank_of_contains {i : Nat} {sym : LibcSym} (hi : syms[i]? = some sym) (hcontains : sym.Contains addr) :
    i + 1 = rankOf syms addr := by
  have hle : rankOf syms addr ≤ syms.length := List.countP_le_length
  have hlt : i < rankOf syms addr := (le_iff_lt_rank hsorted hi).mp (BitVec.le_def.mpr hcontains.1)
  by_contra hne
  have hnext := List.getElem?_eq_getElem (l := syms) (i := i + 1) (by omega)
  have hbelow : (syms[i + 1]).addr ≤ addr := (le_iff_lt_rank hsorted hnext).mpr (by omega)
  rw [BitVec.le_def] at hbelow
  obtain ⟨hilt, rfl⟩ := List.getElem?_eq_some_iff.mp hi
  have hapart := List.pairwise_iff_getElem.mp hdisjoint i (i + 1) hilt (by omega) (Nat.lt_succ_self i)
  have hend := hcontains.2
  omega

/-- Where functions do not overlap the one that contains an address is found. -/
theorem find_sym_of_disjoint {i : Nat} {sym : LibcSym} (hi : syms[i]? = some sym) (hcontains : sym.Contains addr)
    (hends : sym.Ends) : findSymAtAddr syms addr = some i := by
  have hrank := rank_of_contains hsorted hdisjoint hi hcontains
  have hle : rankOf syms addr ≤ syms.length := List.countP_le_length
  have hmem := last_mem_probes (rankOf syms addr) syms.length 0 (syms.length - 1) (Int.le_refl 0) (by omega)
    (by omega) (by omega)
  rw [← hrank, Nat.add_sub_cancel, hrank] at hmem
  have hsome := findSymAtAddr_isSome hsorted (Or.inl hmem) ((turnAt_here_iff hi).mpr ⟨hcontains, hends⟩)
  obtain ⟨j, hfound⟩ := Option.isSome_iff_exists.mp hsome
  obtain ⟨sym', hj, hcontains', -⟩ := exists_of_turnAt_here (findSymAtAddr_visited hsorted hfound).1
  rw [hfound, contains_unique hdisjoint hi hj hcontains hcontains']

end Disjoint

end SentinelStack.Cc
