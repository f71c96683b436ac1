import Mathlib.Data.List.Basic
import Mathlib.Logic.Function.Basic

/- Breadth-first search with a queue of bounded length, marks on what was
   queued, and a depth limit kept by one index into the queue: `boundary` is the
   end of the level the search has come to. The queue is never shortened; `head`
   moves through it.

   `search_spec`: as long as the queue does not fill up, the search queues no
   element twice, every element at most `limit` edges from the seeds, and none
   that is more than `limit + 1` edges away. The invariant behind it
   (`Search.Inv`) is that the part of the queue before `boundary` is exactly what
   is at most `depth` edges away. -/
namespace SentinelStack.Lib

variable {α : Type*}

/-- At most `n` edges from a seed. -/
inductive Within (E : α → α → Prop) (S : α → Prop) : Nat → α → Prop
  | seed {n : Nat} {x : α} (hx : S x) : Within E S n x
  | edge {n : Nat} {x y : α} (hx : Within E S n x) (hxy : E x y) : Within E S (n + 1) y

theorem Within.mono {E : α → α → Prop} {S : α → Prop} {n m : Nat} {x : α} (h : Within E S n x) (hnm : n ≤ m) :
    Within E S m x := by
  induction h generalizing m with
  | seed hx => exact .seed hx
  | edge _ hxy ih =>
    obtain ⟨m, rfl⟩ := Nat.exists_eq_add_of_le' (Nat.one_le_of_lt hnm)
    exact .edge (ih (by omega)) hxy

theorem Within.exists_seed {E : α → α → Prop} {S : α → Prop} {n : Nat} {x : α} (h : Within E S n x) : ∃ s, S s := by
  induction h with
  | seed hx => exact ⟨_, hx⟩
  | edge _ _ ih => exact ih

/-! The queue. -/

/-- What was queued, in order, and the marks on it. -/
structure WorkQueue (α : Type*) where
  queue : List α
  visited : α → Bool

namespace WorkQueue

def empty : WorkQueue α := ⟨[], fun _ => false⟩

/-- The marks are on what was queued, each element once. -/
structure Ok (w : WorkQueue α) : Prop where
  nodup : w.queue.Nodup
  marked : ∀ x, w.visited x = true ↔ x ∈ w.queue

theorem ok_empty : (empty : WorkQueue α).Ok := ⟨List.nodup_nil, by simp [empty]⟩

variable [DecidableEq α]

/-- Queue an element that is not marked, if there is room. -/
def enqueue (cap : Nat) (w : WorkQueue α) (x : α) : WorkQueue α :=
  if w.visited x = false ∧ w.queue.length < cap then ⟨w.queue ++ [x], Function.update w.visited x true⟩ else w

def enqueueAll (cap : Nat) (w : WorkQueue α) (xs : List α) : WorkQueue α := xs.foldl (enqueue cap) w

variable {cap : Nat} {w : WorkQueue α} {x y : α} {xs : List α}

theorem Ok.enqueue (h : w.Ok) (cap : Nat) (x : α) : (w.enqueue cap x).Ok := by
  rw [WorkQueue.enqueue]
  split
  next hnew =>
    have hx : x ∉ w.queue := fun hx => by simp [(h.marked x).mpr hx] at hnew
    refine ⟨List.nodup_append.mpr ⟨h.nodup, by simp, ?_⟩, fun y => ?_⟩
    · intro a ha b hb hab
      rw [hab, List.mem_singleton.mp hb] at ha
      exact hx ha
    · by_cases hy : y = x
      · simp [hy]
      · simp [hy, h.marked y]
  next => exact h

theorem Ok.enqueueAll (h : w.Ok) (cap : Nat) (xs : List α) : (w.enqueueAll cap xs).Ok := by
  induction xs generalizing w with
  | nil => exact h
  | cons x xs ih => exact ih (h.enqueue cap x)

theorem enqueue_grows (cap : Nat) (w : WorkQueue α) (x : α) : w.queue <+: (w.enqueue cap x).queue := by
  rw [enqueue]
  split
  · exact List.prefix_append _ _
  · exact List.prefix_rfl

theorem enqueueAll_grows (cap : Nat) (w : WorkQueue α) (xs : List α) : w.queue <+: (w.enqueueAll cap xs).queue := by
  induction xs generalizing w with
  | nil => exact List.prefix_rfl
  | cons x xs ih => exact (enqueue_grows cap w x).trans (ih _)

theorem mem_of_mem_enqueue (h : y ∈ (w.enqueue cap x).queue) : y ∈ w.queue ∨ y = x := by
  rw [enqueue] at h
  split at h
  · simpa using h
  · exact .inl h

theorem mem_of_mem_enqueueAll (h : y ∈ (w.enqueueAll cap xs).queue) : y ∈ w.queue ∨ y ∈ xs := by
  induction xs generalizing w with
  | nil => exact .inl h
  | cons x xs ih =>
    rcases ih h with hw | hxs
    · rcases mem_of_mem_enqueue hw with hw | rfl
      · exact .inl hw
      · exact .inr List.mem_cons_self
    · exact .inr (List.mem_cons_of_mem _ hxs)

/-- An element that finds room is in the queue afterwards. -/
theorem mem_enqueue (h : w.Ok) (hroom : w.queue.length < cap) : x ∈ (w.enqueue cap x).queue := by
  rw [enqueue]
  split
  · simp
  next hold =>
    apply (h.marked x).mp
    simpa [hroom] using hold

/-- Where the queue does not fill up, nothing is dropped. -/
theorem mem_enqueueAll (h : w.Ok) (hfit : (w.enqueueAll cap xs).queue.length < cap) (hx : x ∈ xs) :
    x ∈ (w.enqueueAll cap xs).queue := by
  induction xs generalizing w with
  | nil => cases hx
  | cons z xs ih =>
    have hgrow := enqueueAll_grows cap (w.enqueue cap z) xs
    cases List.mem_cons.mp hx with
    | inl hxz =>
      subst hxz
      have hlen := ((enqueue_grows cap w x).trans hgrow).length_le
      apply hgrow.subset
      exact mem_enqueue h (Nat.lt_of_le_of_lt hlen hfit)
    | inr hxs => exact ih (h.enqueue cap z) hfit hxs

end WorkQueue

/-! The search. -/

/-- `head` is the next element to expand, `boundary` the end of the level `depth`. -/
structure Search (α : Type*) where
  work : WorkQueue α
  head : Nat
  boundary : Nat
  depth : Nat

namespace Search

/-- The search from a filled queue. -/
def start (w : WorkQueue α) : Search α := ⟨w, 0, w.queue.length, 0⟩

/-- The condition of the loop. -/
def Going (limit : Nat) (s : Search α) : Prop := s.head < s.work.queue.length ∧ s.depth < limit

instance (limit : Nat) (s : Search α) : Decidable (s.Going limit) := inferInstanceAs (Decidable (_ ∧ _))

/-- The part of the queue before the boundary is what is at most `depth` edges away, the rest is one edge
    further; everything before the head has its successors in the queue. -/
structure Inv (E : α → α → Prop) (S : α → Prop) (limit : Nat) (s : Search α) : Prop where
  ok : s.work.Ok
  head_le : s.head ≤ s.boundary
  boundary_le : s.boundary ≤ s.work.queue.length
  depth_le : s.depth ≤ limit
  level : ∀ x, x ∈ s.work.queue.take s.boundary ↔ Within E S s.depth x
  next : ∀ x ∈ s.work.queue, Within E S (s.depth + 1) x
  expanded : ∀ x ∈ s.work.queue.take s.head, ∀ y, E x y → y ∈ s.work.queue

variable {cap limit n : Nat} {succ : α → List α} {E : α → α → Prop} {S : α → Prop} {s : Search α} {w : WorkQueue α}
  {x : α}

theorem inv_start (hok : w.Ok) : (start w).Inv E (· ∈ w.queue) limit where
  ok := hok
  head_le := Nat.zero_le _
  boundary_le := Nat.le_refl _
  depth_le := Nat.zero_le _
  level := by
    intro x
    show x ∈ w.queue.take w.queue.length ↔ Within E (· ∈ w.queue) 0 x
    rw [List.take_length]
    refine ⟨Within.seed, fun h => ?_⟩
    cases h with
    | seed hx => exact hx
  next := fun x hx => .seed hx
  expanded := by
    intro x hx
    simp [start] at hx

theorem take_of_grown {l l' : List α} (h : l <+: l') (hn : n ≤ l.length) : l'.take n = l.take n := by
  obtain ⟨r, rfl⟩ := h
  exact List.take_append_of_le_length hn

/-- What one level further is, all of the level having been expanded. -/
theorem Inv.level_succ (h : s.Inv E S limit) (hend : s.head = s.boundary) :
    x ∈ s.work.queue ↔ Within E S (s.depth + 1) x := by
  refine ⟨h.next x, fun hx => ?_⟩
  cases hx with
  | seed hx => exact List.mem_of_mem_take ((h.level x).mpr (.seed hx))
  | edge hy hyx =>
    have hmem := (h.level _).mpr hy
    rw [← hend] at hmem
    exact h.expanded _ hmem x hyx

/-- Nothing leads out of a queue that is expanded to its end. -/
theorem Inv.closed (h : s.Inv E S limit) (hend : s.work.queue.length ≤ s.head) (hx : Within E S n x) :
    x ∈ s.work.queue := by
  have hall : s.work.queue.take s.head = s.work.queue := List.take_of_length_le hend
  induction hx with
  | seed hx => exact List.mem_of_mem_take ((h.level _).mpr (.seed hx))
  | edge _ hxy ih => exact h.expanded _ (by rw [hall]; exact ih) _ hxy

variable [DecidableEq α]

/-- Take the next element, note a new level when it is past the boundary, and queue its successors. -/
def step (cap : Nat) (succ : α → List α) (s : Search α) : Search α :=
  match s.work.queue[s.head]? with
  | none => s
  | some x =>
    { work := s.work.enqueueAll cap (succ x)
      head := s.head + 1
      boundary := if s.head + 1 > s.boundary then s.work.queue.length else s.boundary
      depth := if s.head + 1 > s.boundary then s.depth + 1 else s.depth }

/-- The loop. Its head moves on with every turn, so the queue's capacity bounds the turns. -/
def loop (cap : Nat) (succ : α → List α) (limit : Nat) : (fuel : Nat) → Search α → Search α
  | 0, s => s
  | fuel + 1, s => if s.Going limit then loop cap succ limit fuel (s.step cap succ) else s

/-- **One turn.** -/
theorem Inv.step (hsucc : ∀ x y, y ∈ succ x ↔ E x y) (h : s.Inv E S limit) (hgoing : s.Going limit)
    (hfit : (s.step cap succ).work.queue.length < cap) : (s.step cap succ).Inv E S limit := by
  obtain ⟨x, hx⟩ : ∃ x, s.work.queue[s.head]? = some x := ⟨_, List.getElem?_eq_getElem hgoing.1⟩
  have hxq : x ∈ s.work.queue := List.mem_of_getElem? hx
  rw [Search.step, hx] at hfit ⊢
  dsimp only at hfit
  have hgrow := WorkQueue.enqueueAll_grows cap s.work (succ x)
  have hhead : s.work.queue.take (s.head + 1) = s.work.queue.take s.head ++ [x] := by
    rw [List.take_add_one, hx]
    rfl
  have hexpanded : ∀ z ∈ (s.work.enqueueAll cap (succ x)).queue.take (s.head + 1), ∀ y, E z y →
      y ∈ (s.work.enqueueAll cap (succ x)).queue := by
    intro z hz y hzy
    rw [take_of_grown hgrow hgoing.1, hhead, List.mem_append, List.mem_singleton] at hz
    rcases hz with hz | rfl
    · exact hgrow.subset (h.expanded z hz y hzy)
    · exact WorkQueue.mem_enqueueAll h.ok hfit ((hsucc z y).mpr hzy)
  -- a new element is one edge further than the one expanded
  have hnext : ∀ n, (∀ y ∈ s.work.queue, Within E S (n + 1) y) → Within E S n x →
      ∀ y ∈ (s.work.enqueueAll cap (succ x)).queue, Within E S (n + 1) y := by
    intro n hold hxn y hy
    rcases WorkQueue.mem_of_mem_enqueueAll hy with hy | hy
    · exact hold y hy
    · exact .edge hxn ((hsucc x y).mp hy)
  by_cases hpast : s.head + 1 > s.boundary
  · have hend : s.head = s.boundary := Nat.le_antisymm h.head_le (by omega)
    simp only [if_pos hpast]
    refine ⟨h.ok.enqueueAll cap _, hgoing.1, hgrow.length_le, hgoing.2, fun y => ?_, ?_, hexpanded⟩
    · show y ∈ (s.work.enqueueAll cap (succ x)).queue.take s.work.queue.length ↔ _
      rw [take_of_grown hgrow (Nat.le_refl _), List.take_length]
      exact h.level_succ hend
    · exact hnext (s.depth + 1) (fun y hy => (h.next y hy).mono (by omega)) (h.next x hxq)
  · simp only [if_neg hpast]
    refine ⟨h.ok.enqueueAll cap _, Nat.le_of_not_lt hpast, Nat.le_trans h.boundary_le hgrow.length_le, h.depth_le,
      fun y => ?_, ?_, hexpanded⟩
    · rw [take_of_grown hgrow h.boundary_le]
      exact h.level y
    · apply hnext s.depth h.next
      apply (h.level x).mp
      apply List.mem_of_getElem? (i := s.head)
      rw [List.getElem?_take_of_lt (by omega)]
      exact hx

theorem step_grows (cap : Nat) (succ : α → List α) (s : Search α) :
    s.work.queue <+: (s.step cap succ).work.queue := by
  rw [step]
  split
  · exact List.prefix_rfl
  · exact WorkQueue.enqueueAll_grows _ _ _

theorem loop_grows (cap : Nat) (succ : α → List α) (limit fuel : Nat) (s : Search α) :
    s.work.queue <+: (loop cap succ limit fuel s).work.queue := by
  induction fuel generalizing s with
  | zero => exact List.prefix_rfl
  | succ fuel ih =>
    rw [loop]
    split
    · exact (step_grows cap succ s).trans (ih _)
    · exact List.prefix_rfl

/-- **The whole loop.** -/
theorem Inv.loop (hsucc : ∀ x y, y ∈ succ x ↔ E x y) (h : s.Inv E S limit) {fuel : Nat}
    (hfit : (loop cap succ limit fuel s).work.queue.length < cap) : (loop cap succ limit fuel s).Inv E S limit := by
  induction fuel generalizing s with
  | zero => exact h
  | succ fuel ih =>
    rw [Search.loop] at hfit ⊢
    split at hfit
    next hgoing =>
      rw [if_pos hgoing]
      refine ih (h.step hsucc hgoing (Nat.lt_of_le_of_lt ?_ hfit)) hfit
      exact (loop_grows cap succ limit fuel _).length_le
    next hstop =>
      rw [if_neg hstop]
      exact h

/-- A loop that is still going has made all its turns. -/
theorem head_of_going {fuel : Nat} (h : (loop cap succ limit fuel s).Going limit) :
    (loop cap succ limit fuel s).head = s.head + fuel := by
  induction fuel generalizing s with
  | zero => rfl
  | succ fuel ih =>
    rw [loop] at h ⊢
    split at h
    next hgoing =>
      rw [if_pos hgoing, ih h, step, List.getElem?_eq_getElem hgoing.1]
      dsimp only
      omega
    next hstop => exact absurd h hstop

/-- **What the search queues.** -/
theorem search_spec (hsucc : ∀ x y, y ∈ succ x ↔ E x y) (hok : w.Ok)
    (hfit : (loop cap succ limit cap (start w)).work.queue.length < cap) :
    (loop cap succ limit cap (start w)).work.queue.Nodup ∧
      (∀ x, Within E (· ∈ w.queue) limit x → x ∈ (loop cap succ limit cap (start w)).work.queue) ∧
      ∀ x ∈ (loop cap succ limit cap (start w)).work.queue, Within E (· ∈ w.queue) (limit + 1) x := by
  have hinv : (loop cap succ limit cap (start w)).Inv E (· ∈ w.queue) limit := (inv_start hok).loop hsucc hfit
  have hstop : ¬ (loop cap succ limit cap (start w)).Going limit := by
    intro hgoing
    have hturns := head_of_going hgoing
    have hhead := hgoing.1
    omega
  generalize loop cap succ limit cap (start w) = s at hinv hstop
  refine ⟨hinv.ok.nodup, fun x hx => ?_, fun x hx => (hinv.next x hx).mono (Nat.succ_le_succ hinv.depth_le)⟩
  by_cases hend : s.head < s.work.queue.length
  · -- stopped by the limit: the last level is the one the limit asks for
    have hdepth : s.depth = limit := Nat.le_antisymm hinv.depth_le (Nat.le_of_not_lt fun h => hstop ⟨hend, h⟩)
    rw [← hdepth] at hx
    exact List.mem_of_mem_take ((hinv.level x).mpr hx)
  · exact hinv.closed (Nat.le_of_not_lt hend) hx

end Search
end SentinelStack.Lib
