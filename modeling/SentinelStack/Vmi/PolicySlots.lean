import SentinelStack.Vmi.ThreatPolicy

/- The slots of the policy table over calls of `get_policy_state` alone.

   One scan looks for the slot of the pid and for a free one; where there is neither,
   the pid takes the slot at its number modulo the size of the table, from whoever
   has it. Main result: `policy_table_integrity` — in every table that calls lead to,
   a pid has at most one slot, and a call changes the slot of another pid only where
   all slots are those of other pids, and then that one slot. Such a table is reached
   (`full_of_others_reached`). -/
namespace SentinelStack.Vmi
open SentinelStack.Lib

/-- The table after a call. -/
def policyLookup (t : PolicyTable) (pid : U32) : PolicyTable := (getPolicyState t pid).2

/-- The table after calls for these pids, from the zeroed one on. -/
def policyLookups (pids : List U32) : PolicyTable := run policyLookup (fun _ => {}) pids

/-- Every slot is in use for another pid. -/
def FullOfOthers (t : PolicyTable) (pid : U32) : Prop := ∀ i, (t i).used = true ∧ (t i).pid ≠ pid

section
variable {t : PolicyTable} {pid : U32}

/-! One call. -/

theorem not_holdsSlot_of_full (h : FullOfOthers t pid) : ¬ HoldsSlot t pid := by
  intro hholds
  obtain ⟨i, -, hpid⟩ := hholds
  exact (h i).2 hpid

/-- Where the pid has no slot and none is free, all are those of others. -/
theorem full_of_not_holds (hmissing : ¬ HoldsSlot t pid) (hused : ∀ i, (t i).used = true) : FullOfOthers t pid := by
  intro i
  exact ⟨hused i, fun hpid => hmissing ⟨i, hused i, hpid⟩⟩

/-- **What a call does**: nothing; a free slot is taken; or, of a full table, the slot the pid is assigned. -/
theorem policyLookup_cases (t : PolicyTable) (pid : U32) :
    HoldsSlot t pid ∧ policyLookup t pid = t ∨
      (¬ HoldsSlot t pid ∧ ∃ i, (t i).used = false ∧ policyLookup t pid = Function.update t i (freshState pid)) ∨
      (FullOfOthers t pid ∧ ∃ i, i.val = pid.toNat % pidPolicyTableSize ∧
        policyLookup t pid = Function.update t i (freshState pid)) := by
  rcases getPolicyState_cases t pid with ⟨i, hserves, heq⟩ | ⟨hmissing, i, hslot, heq⟩
  · exact Or.inl ⟨⟨i, hserves⟩, by rw [policyLookup, heq]⟩
  · have htable : policyLookup t pid = Function.update t i (freshState pid) := by rw [policyLookup, heq]
    rcases hslot with hunused | ⟨hused, hindex⟩
    · exact Or.inr (Or.inl ⟨hmissing, i, hunused, htable⟩)
    · exact Or.inr (Or.inr ⟨full_of_not_holds hmissing hused, i, hindex, htable⟩)

theorem policyLookup_oneSlotEach (hone : OneSlotEach t) (pid : U32) : OneSlotEach (policyLookup t pid) := by
  have hfresh : (freshState pid).Serves pid := ⟨rfl, rfl⟩
  rcases policyLookup_cases t pid with ⟨-, heq⟩ | ⟨hmissing, i, -, heq⟩ | ⟨hfull, i, -, heq⟩
  · rw [heq]
    exact hone
  · rw [heq]
    exact oneSlotEach_update hone hfresh fun j _ hserves => hmissing ⟨j, hserves⟩
  · rw [heq]
    exact oneSlotEach_update hone hfresh fun j _ hserves => not_holdsSlot_of_full hfull ⟨j, hserves⟩

/-- A slot in use is left alone while there is another to take. -/
theorem policyLookup_keeps (hroom : ¬ FullOfOthers t pid) {i : Fin pidPolicyTableSize} (hused : (t i).used = true) :
    policyLookup t pid i = t i := by
  rcases policyLookup_cases t pid with ⟨-, heq⟩ | ⟨-, j, hunused, heq⟩ | ⟨hfull, -⟩
  · rw [heq]
  · have hne : i ≠ j := by
      rintro rfl
      rw [hused] at hunused
      cases hunused
    rw [heq, Function.update_of_ne hne]
  · exact absurd hfull hroom

/-- In a table of others one slot changes, as the other's pid is replaced. -/
theorem policyLookup_evicts (hfull : FullOfOthers t pid) (i : Fin pidPolicyTableSize) :
    policyLookup t pid i ≠ t i ↔ i.val = pid.toNat % pidPolicyTableSize := by
  rcases policyLookup_cases t pid with ⟨hholds, -⟩ | ⟨-, j, hunused, -⟩ | ⟨-, j, hindex, heq⟩
  · exact absurd hholds (not_holdsSlot_of_full hfull)
  · rw [(hfull j).1] at hunused
    cases hunused
  · rw [heq]
    by_cases hij : i = j
    · rw [hij, Function.update_self]
      refine iff_of_true (fun hsame => (hfull j).2 ?_) hindex
      rw [← hsame]
      rfl
    · rw [Function.update_of_ne hij]
      refine iff_of_false (fun hne => hne rfl) fun hi => hij (Fin.ext (hi.trans hindex.symm))

end

/-! Every sequence of calls. -/

theorem policyLookups_oneSlotEach (pids : List U32) : OneSlotEach (policyLookups pids) := by
  have hstep : ∀ t pid, OneSlotEach t → OneSlotEach (policyLookup t pid) := by
    intro t pid hone
    exact policyLookup_oneSlotEach hone pid
  have hzero : OneSlotEach fun _ => {} := by
    intro i j q hi
    cases hi.1
  exact run_inv hstep hzero pids

/-- **Slots.** After every sequence of calls from the zeroed table on: no pid has two slots; and
    the next call leaves the slots of other pids as they are, unless all slots are those of other
    pids, when it changes the one slot at `pid % 1024`. -/
theorem policy_table_integrity (pids : List U32) (p : U32) :
    OneSlotEach (policyLookups pids) ∧
      (¬ FullOfOthers (policyLookups pids) p → ∀ q, q ≠ p → ∀ i, (policyLookups pids i).Serves q →
        policyLookup (policyLookups pids) p i = policyLookups pids i) ∧
      (FullOfOthers (policyLookups pids) p → ∀ i,
        policyLookup (policyLookups pids) p i ≠ policyLookups pids i ↔ i.val = p.toNat % pidPolicyTableSize) := by
  refine ⟨policyLookups_oneSlotEach pids, ?_, ?_⟩
  · intro hroom q _ i hserves
    exact policyLookup_keeps hroom hserves.1
  · intro hfull i
    exact policyLookup_evicts hfull i

/-! The table fills up. -/

/-- Up to 1024 pids all have their slots. -/
theorem holdsSlot_policyLookups {pids : List U32} (hfew : pids.toFinset.card ≤ pidPolicyTableSize) (q : U32) :
    HoldsSlot (policyLookups pids) q ↔ q ∈ pids.toFinset := by
  induction pids using List.reverseRecOn generalizing q with
  | nil =>
    refine iff_of_false ?_ (by simp)
    rintro ⟨i, hused, -⟩
    cases hused
  | append_singleton pids p ih =>
    have hpids : (pids ++ [p]).toFinset = pids.toFinset ∪ {p} := by simp
    have hbefore := ih ((Finset.card_le_card (by rw [hpids]; exact Finset.subset_union_left)).trans hfew)
    have hroom := signal_has_room (policyLookups_oneSlotEach pids) hbefore (hpids ▸ hfew)
    have hstep : policyLookups (pids ++ [p]) = policyLookup (policyLookups pids) p := run_snoc ..
    rw [hstep, hpids, Finset.mem_union, Finset.mem_singleton, ← hbefore q]
    rcases policyLookup_cases (policyLookups pids) p with ⟨hholds, heq⟩ | ⟨-, i, hunused, heq⟩ | ⟨hfull, -⟩
    · rw [heq]
      refine ⟨Or.inl, fun h => h.elim id ?_⟩
      rintro rfl
      exact hholds
    · have hfresh : (freshState p).Serves p := ⟨rfl, rfl⟩
      rw [heq, holdsSlot_update hfresh (Or.inr hunused), eq_comm]
    · have hcard := card_usedSlots_full fun j => (hfull j).1
      exact absurd (hroom.resolve_left (not_holdsSlot_of_full hfull)) (by omega)

/-- After calls for 1024 pids every other pid finds all slots in use for others. -/
theorem full_of_others_reached {pids : List U32} (hnodup : pids.Nodup) (hlen : pids.length = pidPolicyTableSize) {p : U32}
    (hp : p ∉ pids) : FullOfOthers (policyLookups pids) p := by
  have hcard : pids.toFinset.card = pidPolicyTableSize := (List.toFinset_card_of_nodup hnodup).trans hlen
  have hholds := holdsSlot_policyLookups hcard.le
  have hall : usedSlots (policyLookups pids) = Finset.univ := by
    apply Finset.eq_univ_of_card
    have hle := le_card_usedSlots fun q hq => (hholds q).mpr hq
    have hmost := Finset.card_le_univ (usedSlots (policyLookups pids))
    rw [Fintype.card_fin] at hmost ⊢
    omega
  apply full_of_not_holds
  · rw [hholds, List.mem_toFinset]
    exact hp
  · intro i
    have hmem : i ∈ usedSlots (policyLookups pids) := hall ▸ Finset.mem_univ i
    exact (Finset.mem_filter.mp hmem).2

end SentinelStack.Vmi
