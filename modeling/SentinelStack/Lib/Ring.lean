import Mathlib.Logic.Function.Basic
import Mathlib.Data.List.Basic

/- A ring of the last `cap` items: the writer goes round the slots, the reader
   counts back from it. After any number of pushes (`Holds.pushAll`) the item read
   `i` back is the `i`-th newest, as long as the ring still has it (`Holds.recent`). -/
namespace SentinelStack.Lib

/-- The slots, the one to write next, and how many are in use. -/
structure Ring (α : Type*) (cap : Nat) where
  slots : Nat → α
  idx : Nat
  count : Nat

namespace Ring

variable {α : Type*} {cap : Nat}

def empty (a : α) : Ring α cap := ⟨fun _ => a, 0, 0⟩

def push (r : Ring α cap) (a : α) : Ring α cap where
  slots := Function.update r.slots r.idx a
  idx := (r.idx + 1) % cap
  count := if r.count < cap then r.count + 1 else r.count

/-- The item `i` back from the newest. -/
def recent (r : Ring α cap) (i : Nat) : α := r.slots ((r.idx + cap - 1 - i) % cap)

def pushAll (r : Ring α cap) (xs : List α) : Ring α cap := xs.foldl push r

/-- The ring holds the end of the sequence `xs`, each item in the slot of its position. -/
structure Holds (r : Ring α cap) (xs : List α) : Prop where
  idx : r.idx = xs.length % cap
  count : r.count = min xs.length cap
  slots : ∀ j x, xs[j]? = some x → xs.length ≤ j + cap → r.slots (j % cap) = x

theorem holds_empty (a : α) : (empty a : Ring α cap).Holds [] where
  idx := (Nat.zero_mod cap).symm
  count := (Nat.zero_min cap).symm
  slots j x h _ := by simp at h

/-- Positions less than `cap` apart have slots of their own. -/
theorem mod_ne_of_near {j n : Nat} (hjn : j < n) (hnear : n < j + cap) : j % cap ≠ n % cap := by
  intro h
  have hdvd : cap ∣ n - j := Nat.dvd_of_mod_eq_zero (Nat.sub_mod_eq_zero_of_mod_eq h.symm)
  have hle := Nat.le_of_dvd (by omega) hdvd
  omega

theorem Holds.push {r : Ring α cap} {xs : List α} (h : r.Holds xs) (a : α) : (r.push a).Holds (xs ++ [a]) where
  idx := by
    show (r.idx + 1) % cap = _
    rw [h.idx, List.length_append, Nat.mod_add_mod]
    rfl
  count := by
    show (if r.count < cap then r.count + 1 else r.count) = _
    rw [h.count, List.length_append, List.length_singleton]
    split <;> omega
  slots j x hj hnear := by
    show Function.update r.slots r.idx a (j % cap) = x
    rw [List.length_append, List.length_singleton] at hnear
    rw [h.idx]
    rcases Nat.lt_or_ge j xs.length with hlt | hge
    · rw [Function.update_of_ne (mod_ne_of_near hlt (by omega))]
      rw [List.getElem?_append_left hlt] at hj
      exact h.slots j x hj (by omega)
    · -- the new item
      rw [List.getElem?_append_right hge, List.getElem?_singleton] at hj
      split at hj
      · have hj' : j = xs.length := by omega
        rw [hj', Function.update_self]
        exact Option.some.inj hj
      · cases hj

theorem Holds.pushAll {r : Ring α cap} {xs : List α} (h : r.Holds xs) (ys : List α) :
    (r.pushAll ys).Holds (xs ++ ys) := by
  induction ys generalizing r xs with
  | nil => rwa [List.append_nil]
  | cons y ys ih =>
    have hrest := ih (h.push y)
    rwa [List.append_assoc] at hrest

/-- **Reading back.** -/
theorem Holds.recent {r : Ring α cap} {xs : List α} (h : r.Holds xs) {i : Nat} {x : α} (hi : i < cap)
    (hx : xs.reverse[i]? = some x) : r.recent i = x := by
  obtain ⟨hlen, -⟩ := List.getElem?_eq_some_iff.mp hx
  rw [List.length_reverse] at hlen
  rw [List.getElem?_reverse hlen] at hx
  have hslot : (r.idx + cap - 1 - i) % cap = (xs.length - 1 - i) % cap := by
    rw [h.idx, show xs.length % cap + cap - 1 - i = xs.length % cap + (cap - 1 - i) by omega, Nat.mod_add_mod,
      show xs.length + (cap - 1 - i) = xs.length - 1 - i + cap by omega, Nat.add_mod_right]
  show r.slots _ = x
  rw [hslot]
  exact h.slots _ x hx (by omega)

end Ring
end SentinelStack.Lib
