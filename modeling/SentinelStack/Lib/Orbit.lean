import Mathlib.Data.List.Basic
import Mathlib.Logic.Function.Iterate

/- One lap of a successor function: its iterates from a point up to the first
   return to it. `lapFrom` is the loop that follows the successors; it computes the
   lap (`lapFrom_eq_lap`) for every successor function, also one whose iterates never
   come back, and on a circular list it is the list (`lap_of_circular`). -/
namespace SentinelStack.Lib

variable {α : Type*} [DecidableEq α] (next : α → α) (start : α)

/-- `start`, `next start`, … up to and without the first return to `start`, and at most `bound`
    of them. -/
def lap (bound : Nat) : List α :=
  ((List.range bound).takeWhile fun k => k = 0 ∨ next^[k] start ≠ start).map fun k => next^[k] start

/-- The loop that visits a point and goes on to its successor, unless that is `start`. -/
def lapFrom : Nat → α → List α
  | 0, _ => []
  | bound + 1, a => a :: if next a = start then [] else lapFrom bound (next a)

theorem length_lap_le (bound : Nat) : (lap next start bound).length ≤ bound := by
  rw [lap, List.length_map]
  calc ((List.range bound).takeWhile fun k => k = 0 ∨ next^[k] start ≠ start).length
      ≤ (List.range bound).length := (List.takeWhile_sublist _).length_le
    _ = bound := List.length_range

theorem lapFrom_iterate (bound j : Nat) (hj : j = 0 ∨ next^[j] start ≠ start) :
    lapFrom next start bound (next^[j] start) =
      ((List.range' j bound).takeWhile fun k => k = 0 ∨ next^[k] start ≠ start).map fun k => next^[k] start := by
  induction bound generalizing j with
  | zero => rfl
  | succ bound ih =>
    rw [lapFrom, List.range'_succ, List.takeWhile_cons, if_pos (decide_eq_true hj), List.map_cons,
      ← Function.iterate_succ_apply' next]
    congr 1
    by_cases hback : next^[j + 1] start = start
    · -- the successor is the start: the lap ends here
      rw [if_pos hback]
      cases bound with
      | zero => rfl
      | succ bound =>
        rw [List.range'_succ, List.takeWhile_cons, if_neg (by simp [hback])]
        rfl
    · rw [if_neg hback]
      exact ih (j + 1) (Or.inr hback)

/-- **The loop computes the lap.** -/
theorem lapFrom_eq_lap (bound : Nat) : lapFrom next start bound start = lap next start bound := by
  rw [lap, List.range_eq_range']
  exact lapFrom_iterate next start bound 0 (Or.inl rfl)

/-- The members follow each other, and the last leads back to the first. -/
def Circular (l : List α) : Prop :=
  l.IsChain (fun a b => next a = b) ∧ ∀ a ∈ l.getLast?, ∀ b ∈ l.head?, next a = b

variable {next start}

theorem lapFrom_of_chain {a : α} {rest : List α} {bound : Nat} (hlen : (a :: rest).length ≤ bound)
    (hchain : (a :: rest).IsChain (fun a b => next a = b)) (hstart : start ∉ rest)
    (hlast : ∀ b ∈ (a :: rest).getLast?, next b = start) : lapFrom next start bound a = a :: rest := by
  induction rest generalizing a bound with
  | nil =>
    obtain ⟨n, rfl⟩ : ∃ n, bound = n + 1 := ⟨bound - 1, by simp at hlen; omega⟩
    rw [lapFrom, if_pos (hlast a rfl)]
  | cons b rest ih =>
    obtain ⟨n, rfl⟩ : ∃ n, bound = n + 1 := ⟨bound - 1, by simp at hlen; omega⟩
    rw [List.isChain_cons_cons] at hchain
    rw [List.mem_cons, not_or] at hstart
    rw [lapFrom, hchain.1, if_neg (fun h => hstart.1 h.symm)]
    congr 1
    refine ih (Nat.le_of_succ_le_succ hlen) hchain.2 hstart.2 ?_
    intro c hc
    exact hlast c (by rwa [List.getLast?_cons_cons])

/-- **A circular list is visited once around.** -/
theorem lap_of_circular {l : List α} (hnodup : l.Nodup) (hhead : start ∈ l.head?) (hcircular : Circular next l)
    {bound : Nat} (hlen : l.length ≤ bound) : lap next start bound = l := by
  cases l with
  | nil => cases hhead
  | cons a rest =>
    obtain rfl : a = start := Option.some.inj hhead
    rw [← lapFrom_eq_lap]
    refine lapFrom_of_chain hlen hcircular.1 (List.nodup_cons.mp hnodup).1 ?_
    intro b hb
    exact hcircular.2 b hb a rfl

/-! Facts about all iterates up to a bound, taken apart at the first step. -/

section
variable {β : Type*} {f : β → β} {P : β → Prop} {x : β} {i : Nat}

theorem forall_iterate_succ : (∀ j ≤ i + 1, P (f^[j] x)) ↔ P x ∧ ∀ j ≤ i, P (f^[j] (f x)) := by
  simp only [← Function.iterate_succ_apply]
  refine ⟨fun h => ⟨h 0 (Nat.zero_le _), fun j hj => h (j + 1) (by omega)⟩, fun h j hj => ?_⟩
  cases j with
  | zero => exact h.1
  | succ j => exact h.2 j (by omega)

theorem iterate_ne_succ {a : β} :
    (∀ j, 0 < j → j ≤ i + 1 → f^[j] x ≠ a) ↔ f x ≠ a ∧ ∀ j, 0 < j → j ≤ i → f^[j] (f x) ≠ a := by
  simp only [← Function.iterate_succ_apply]
  refine ⟨fun h => ⟨h 1 Nat.one_pos (by omega), fun j _ hj => h (j + 1) (Nat.succ_pos j) (by omega)⟩,
    fun h j hpos hj => ?_⟩
  obtain ⟨k, rfl⟩ := Nat.exists_eq_add_one_of_ne_zero (Nat.ne_of_gt hpos)
  cases k with
  | zero => exact h.1
  | succ k => exact h.2 (k + 1) (Nat.succ_pos k) (by omega)

end

end SentinelStack.Lib
