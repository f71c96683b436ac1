import Mathlib.Data.List.Basic

/- The elements of a list that are the first with their key, as a scan finds them
   that looks back over what came before: `firstsBy`. Each key is found once and in
   the order of the first occurrences (`pairwise_firstsBy`), and the keys found are
   those of the list (`mem_keys_firstsBy`). -/
namespace SentinelStack.Lib

variable {α K : Type*} [DecidableEq K] (key : α → K)

/-- The scan after it has passed elements with the keys `before`. -/
def firstsBy : List K → List α → List α
  | _, [] => []
  | before, a :: rest =>
    if key a ∈ before then firstsBy (before ++ [key a]) rest else a :: firstsBy (before ++ [key a]) rest

variable {key}

theorem mem_of_mem_firstsBy {before : List K} {l : List α} {a : α} (h : a ∈ firstsBy key before l) :
    a ∈ l ∧ key a ∉ before := by
  induction l generalizing before with
  | nil => cases h
  | cons b rest ih =>
    rw [firstsBy] at h
    have hlater : a ∈ firstsBy key (before ++ [key b]) rest → a ∈ b :: rest ∧ key a ∉ before := by
      intro hmem
      obtain ⟨hrest, hnew⟩ := ih hmem
      exact ⟨List.mem_cons_of_mem b hrest, fun hbefore => hnew (List.mem_append_left _ hbefore)⟩
    split at h
    · exact hlater h
    next hfirst =>
      rcases List.mem_cons.mp h with rfl | hmem
      · exact ⟨List.mem_cons_self, hfirst⟩
      · exact hlater hmem

/-- **The keys found** are those that were not there before. -/
theorem mem_keys_firstsBy {before : List K} {l : List α} {k : K} :
    k ∈ (firstsBy key before l).map key ↔ k ∈ l.map key ∧ k ∉ before := by
  constructor
  · intro h
    obtain ⟨a, ha, rfl⟩ := List.mem_map.mp h
    obtain ⟨hmem, hnew⟩ := mem_of_mem_firstsBy ha
    exact ⟨List.mem_map_of_mem hmem, hnew⟩
  · rintro ⟨hmem, hnew⟩
    induction l generalizing before with
    | nil => cases hmem
    | cons a rest ih =>
      rw [List.map_cons, List.mem_cons] at hmem
      by_cases hk : k = key a
      · rw [hk] at hnew ⊢
        rw [firstsBy, if_neg hnew]
        exact List.mem_cons_self
      · have hrest := @ih (before ++ [key a]) (hmem.resolve_left hk) (by simp [hnew, hk])
        rw [firstsBy]
        split
        · exact hrest
        · exact List.mem_cons_of_mem _ hrest

/-- **The order found** is that of the first occurrences. -/
theorem pairwise_firstsBy (before : List K) (l : List α) :
    ((firstsBy key before l).map key).Pairwise fun a b =>
      (before ++ l.map key).idxOf a < (before ++ l.map key).idxOf b := by
  induction l generalizing before with
  | nil => exact List.Pairwise.nil
  | cons a rest ih =>
    have hrest := ih (before ++ [key a])
    rw [List.append_assoc, List.singleton_append] at hrest
    rw [firstsBy, List.map_cons]
    split
    · exact hrest
    next hfirst =>
      rw [List.map_cons, List.pairwise_cons]
      refine ⟨?_, hrest⟩
      intro b hb
      -- a key found later stands behind the keys passed and this one
      obtain ⟨-, hnew⟩ := mem_keys_firstsBy.mp hb
      rw [List.mem_append, List.mem_singleton, not_or] at hnew
      rw [List.idxOf_append_of_notMem hfirst, List.idxOf_append_of_notMem hnew.1, List.idxOf_cons_self,
        List.idxOf_cons_ne _ (Ne.symm hnew.2)]
      omega

end SentinelStack.Lib
