import Mathlib.Data.List.Basic

/- A scan of a list for a hit that some elements stop: readers of line files are
   of this shape. `reaches_iff_split` says what the scan finds, `reaches_flatMap`
   takes it from the lines to the records the lines come from. -/
namespace SentinelStack.Lib

variable {α β : Type*}

/-- A hit comes before every stop. An element that is both is a hit. -/
def Reaches (hit stop : α → Prop) : List α → Prop
  | [] => False
  | x :: xs => hit x ∨ (¬ stop x ∧ Reaches hit stop xs)

variable {hit stop : α → Prop}

theorem reaches_append (xs ys : List α) :
    Reaches hit stop (xs ++ ys) ↔ Reaches hit stop xs ∨ ((∀ x ∈ xs, ¬ stop x) ∧ Reaches hit stop ys) := by
  induction xs with
  | nil => simp [Reaches]
  | cons x xs ih =>
    simp only [List.cons_append, Reaches, ih, List.forall_mem_cons]
    tauto

theorem reaches_flatMap (f : β → List α) (bs : List β) :
    Reaches hit stop (bs.flatMap f) ↔
      Reaches (fun b => Reaches hit stop (f b)) (fun b => ∃ x ∈ f b, stop x) bs := by
  induction bs with
  | nil => simp [Reaches]
  | cons b bs ih =>
    rw [List.flatMap_cons, reaches_append, ih, Reaches]
    simp only [not_exists, not_and]

/-- The hit found, with no stop in front of it. -/
theorem reaches_iff_split (xs : List α) :
    Reaches hit stop xs ↔ ∃ front x rest, xs = front ++ x :: rest ∧ hit x ∧ ∀ y ∈ front, ¬ stop y := by
  induction xs with
  | nil => simp [Reaches]
  | cons x xs ih =>
    rw [Reaches, ih]
    constructor
    · intro h
      rcases h with hx | ⟨hx, front, y, rest, rfl, hy, hfront⟩
      · exact ⟨[], x, xs, rfl, hx, by simp⟩
      · exact ⟨x :: front, y, rest, rfl, hy, List.forall_mem_cons.mpr ⟨hx, hfront⟩⟩
    · intro h
      obtain ⟨front, y, rest, hsplit, hy, hfront⟩ := h
      cases front with
      | nil =>
        rw [List.nil_append, List.cons.injEq] at hsplit
        exact Or.inl (hsplit.1 ▸ hy)
      | cons z front =>
        rw [List.cons_append, List.cons.injEq] at hsplit
        obtain ⟨hz, hfront⟩ := List.forall_mem_cons.mp hfront
        exact Or.inr ⟨hsplit.1 ▸ hz, front, y, rest, hsplit.2, hy, hfront⟩

end SentinelStack.Lib
