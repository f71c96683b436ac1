import Mathlib.Data.Finset.Card
import Mathlib.Data.Finset.Union
import Mathlib.Logic.Relation

/- Reachability and dominance in finite flow graphs, computed by saturation.

   `saturate` adds successors round by round; after as many rounds as there are
   nodes nothing is new (`saturate_fixed`), so it yields what can be reached
   (`mem_saturate_iff`). `dominated s` and `frontier s` are the subtree of the
   dominator tree below `s` and its dominance frontier. `mem_dominated_iff` relates
   the computed sets to dominance on paths, and `mem_frontier_of_exit` is the fact
   a frontier is used for: a path that leaves the blocks dominated by `s` enters
   the frontier of `s`. -/
namespace SentinelStack.Lib

variable {α : Type*} [DecidableEq α]

/-! Saturation. -/

section saturation
variable (next : α → List α)

/-- One round: everything so far, and its successors. -/
def grow (S : Finset α) : Finset α := S ∪ S.biUnion fun a => (next a).toFinset

def saturate (n : Nat) (S : Finset α) : Finset α := (grow next)^[n] S

theorem saturate_succ (n : Nat) (S : Finset α) : saturate next (n + 1) S = grow next (saturate next n S) :=
  Function.iterate_succ_apply' _ _ _

theorem mem_grow {S : Finset α} {b : α} : b ∈ grow next S ↔ b ∈ S ∨ ∃ a ∈ S, b ∈ next a := by
  simp [grow]

theorem subset_grow (S : Finset α) : S ⊆ grow next S := Finset.subset_union_left

variable {next}

theorem saturate_subset {S N : Finset α} (hS : S ⊆ N) (hN : ∀ a ∈ N, ∀ b ∈ next a, b ∈ N) (n : Nat) :
    saturate next n S ⊆ N := by
  induction n with
  | zero => exact hS
  | succ n ih =>
    rw [saturate_succ]
    intro b hb
    rcases (mem_grow next).mp hb with hb | ⟨a, ha, hb⟩
    · exact ih hb
    · exact hN a (ih ha) b hb

/-- A round that is not the last adds something. -/
theorem fixed_or_card (S : Finset α) (n : Nat) :
    grow next (saturate next n S) = saturate next n S ∨ n + 1 ≤ (saturate next (n + 1) S).card := by
  have hstrict : ∀ n, grow next (saturate next n S) ≠ saturate next n S →
      (saturate next n S).card + 1 ≤ (saturate next (n + 1) S).card := by
    intro n hne
    rw [saturate_succ]
    exact Finset.card_lt_card ((subset_grow next _).ssubset_of_ne hne.symm)
  induction n with
  | zero =>
    by_cases hfix : grow next (saturate next 0 S) = saturate next 0 S
    · exact Or.inl hfix
    · have := hstrict 0 hfix
      exact Or.inr (by omega)
  | succ n ih =>
    by_cases hfix : grow next (saturate next (n + 1) S) = saturate next (n + 1) S
    · exact Or.inl hfix
    · -- an earlier round that adds nothing would have been the last
      have hearlier : grow next (saturate next n S) ≠ saturate next n S := by
        intro h
        apply hfix
        rw [saturate_succ, h, h]
      have hcard := ih.resolve_left hearlier
      have := hstrict (n + 1) hfix
      exact Or.inr (by omega)

theorem saturate_fixed {S N : Finset α} (hS : S ⊆ N) (hN : ∀ a ∈ N, ∀ b ∈ next a, b ∈ N) :
    grow next (saturate next N.card S) = saturate next N.card S := by
  refine (fixed_or_card S N.card).resolve_right fun hcard => ?_
  have := Finset.card_le_card (saturate_subset hS hN (N.card + 1))
  omega

/-- **Saturation is reachability.** -/
theorem mem_saturate_iff {S N : Finset α} (hS : S ⊆ N) (hN : ∀ a ∈ N, ∀ b ∈ next a, b ∈ N) {b : α} :
    b ∈ saturate next N.card S ↔ ∃ a ∈ S, Relation.ReflTransGen (fun a b => b ∈ next a) a b := by
  constructor
  · have hsound : ∀ n, ∀ b ∈ saturate next n S, ∃ a ∈ S, Relation.ReflTransGen (fun a b => b ∈ next a) a b := by
      intro n
      induction n with
      | zero => exact fun b hb => ⟨b, hb, .refl⟩
      | succ n ih =>
        intro b hb
        rw [saturate_succ] at hb
        rcases (mem_grow next).mp hb with hb | ⟨c, hc, hb⟩
        · exact ih b hb
        · obtain ⟨a, ha, hac⟩ := ih c hc
          exact ⟨a, ha, hac.tail hb⟩
    exact hsound N.card b
  · rintro ⟨a, ha, hab⟩
    have hfix := saturate_fixed hS hN
    have hstart : ∀ n, S ⊆ saturate next n S := by
      intro n
      induction n with
      | zero => exact Finset.Subset.refl S
      | succ n ih =>
        rw [saturate_succ]
        exact ih.trans (subset_grow next _)
    induction hab with
    | refl => exact hstart _ ha
    | tail _ hedge ih =>
      rw [← hfix]
      exact (mem_grow next).mpr (Or.inr ⟨_, ih, hedge⟩)

end saturation

/-! Flow graphs. -/

/-- A finite graph with an entry, closed under its edges. -/
structure FlowGraph (α : Type*) [DecidableEq α] where
  entry : α
  succs : α → List α
  nodes : Finset α
  entry_mem : entry ∈ nodes
  succs_mem : ∀ a ∈ nodes, ∀ b ∈ succs a, b ∈ nodes

namespace FlowGraph

variable (g : FlowGraph α)

/-- The nodes that a path visits after `a`, up to `b`. -/
inductive Trail : α → List α → α → Prop
  | nil (a : α) : Trail a [] a
  | cons {a b c : α} {p : List α} : b ∈ g.succs a → Trail b p c → Trail a (b :: p) c

/-- Every path from the entry to `b` goes through `s`. -/
def Dominates (s b : α) : Prop := ∀ p, g.Trail g.entry p b → s ∈ g.entry :: p

def reachable : Finset α := saturate g.succs g.nodes.card {g.entry}

/-- What can be reached without `s`. -/
def avoiding (s : α) : Finset α :=
  saturate (fun a => (g.succs a).filter (· ≠ s)) g.nodes.card (({g.entry} : Finset α).erase s)

/-- The reachable nodes that `s` dominates: the subtree below `s` in the dominator tree. -/
def dominated (s : α) : Finset α := g.reachable \ g.avoiding s

/-- The nodes that `s` does not strictly dominate, next to one that it dominates. -/
def frontier (s : α) : Finset α :=
  g.nodes.filter fun b => (∃ a ∈ g.dominated s, b ∈ g.succs a) ∧ ¬ (b ∈ g.dominated s ∧ b ≠ s)

variable {g}

namespace Trail

variable {a b c : α} {p q : List α}

theorem append (h : g.Trail a p b) (h' : g.Trail b q c) : g.Trail a (p ++ q) c := by
  induction h with
  | nil a => exact h'
  | cons hedge _ ih => exact .cons hedge (ih h')

/-- A path through an edge. -/
theorem split (h : g.Trail a (p ++ b :: q) c) : ∃ d, g.Trail a p d ∧ b ∈ g.succs d ∧ g.Trail b q c := by
  induction p generalizing a with
  | nil =>
    cases h with
    | cons hedge hrest => exact ⟨a, .nil a, hedge, hrest⟩
  | cons x p ih =>
    cases h with
    | cons hedge hrest =>
      obtain ⟨d, hd, hb, hq⟩ := ih hrest
      exact ⟨d, .cons hedge hd, hb, hq⟩

/-- A path ends in its last node. -/
theorem getLast?_eq (h : g.Trail a p b) : (a :: p).getLast? = some b := by
  induction h with
  | nil a => rfl
  | cons _ _ ih => rw [List.getLast?_cons_cons, ih]

theorem last_mem (h : g.Trail a p b) : b ∈ a :: p := List.mem_of_getLast? h.getLast?_eq

theorem exists_iff : (∃ p, g.Trail a p b) ↔ Relation.ReflTransGen (fun a b => b ∈ g.succs a) a b := by
  constructor
  · rintro ⟨p, h⟩
    induction h with
    | nil a => exact .refl
    | cons hedge _ ih => exact .head hedge ih
  · intro h
    induction h with
    | refl => exact ⟨[], .nil a⟩
    | tail _ hedge ih =>
      obtain ⟨p, hp⟩ := ih
      exact ⟨_, hp.append (.cons hedge (.nil _))⟩

/-- The paths that avoid `s` after their start. -/
theorem exists_avoiding_iff {s : α} :
    (∃ p, g.Trail a p b ∧ s ∉ p) ↔ Relation.ReflTransGen (fun a b => b ∈ (g.succs a).filter (· ≠ s)) a b := by
  constructor
  · rintro ⟨p, h, hs⟩
    induction h with
    | nil a => exact .refl
    | cons hedge _ ih =>
      obtain ⟨hne, hrest⟩ := not_or.mp (mt List.mem_cons.mpr hs)
      exact .head (List.mem_filter.mpr ⟨hedge, decide_eq_true (Ne.symm hne)⟩) (ih hrest)
  · intro h
    induction h with
    | refl => exact ⟨[], .nil a, List.not_mem_nil⟩
    | tail _ hedge ih =>
      obtain ⟨p, hp, hs⟩ := ih
      obtain ⟨hmem, hne⟩ := List.mem_filter.mp hedge
      refine ⟨_, hp.append (.cons hmem (.nil _)), ?_⟩
      rw [List.mem_append, List.mem_singleton, not_or]
      exact ⟨hs, (of_decide_eq_true hne).symm⟩

end Trail

theorem mem_reachable_iff {b : α} : b ∈ g.reachable ↔ ∃ p, g.Trail g.entry p b := by
  rw [reachable, mem_saturate_iff (Finset.singleton_subset_iff.mpr g.entry_mem) g.succs_mem, Trail.exists_iff]
  simp

theorem mem_avoiding_iff {s b : α} : b ∈ g.avoiding s ↔ ∃ p, g.Trail g.entry p b ∧ s ∉ g.entry :: p := by
  have hstart : ({g.entry} : Finset α).erase s ⊆ g.nodes :=
    (Finset.erase_subset _ _).trans (Finset.singleton_subset_iff.mpr g.entry_mem)
  have hclosed : ∀ a ∈ g.nodes, ∀ b ∈ (g.succs a).filter (· ≠ s), b ∈ g.nodes :=
    fun a ha b hb => g.succs_mem a ha b (List.mem_of_mem_filter hb)
  rw [avoiding, mem_saturate_iff hstart hclosed]
  constructor
  · rintro ⟨a, ha, hab⟩
    obtain ⟨hne, hentry⟩ := Finset.mem_erase.mp ha
    rw [Finset.mem_singleton.mp hentry] at hne hab
    obtain ⟨p, hp, hs⟩ := Trail.exists_avoiding_iff.mpr hab
    refine ⟨p, hp, ?_⟩
    rw [List.mem_cons, not_or]
    exact ⟨hne.symm, hs⟩
  · rintro ⟨p, hp, hs⟩
    obtain ⟨hne, hrest⟩ := not_or.mp (mt List.mem_cons.mpr hs)
    exact ⟨g.entry, Finset.mem_erase.mpr ⟨Ne.symm hne, Finset.mem_singleton_self _⟩,
      Trail.exists_avoiding_iff.mp ⟨p, hp, hrest⟩⟩

/-- **The computed subtree** holds the reachable nodes that are dominated. -/
theorem mem_dominated_iff {s b : α} : b ∈ g.dominated s ↔ b ∈ g.reachable ∧ g.Dominates s b := by
  rw [dominated, Finset.mem_sdiff, mem_avoiding_iff]
  refine and_congr_right fun _ => ?_
  simp only [Dominates, not_exists, not_and, not_not]

theorem Trail.reachable {s b : α} {p : List α} (h : g.Trail s p b) (hs : s ∈ g.reachable) : b ∈ g.reachable := by
  obtain ⟨q, hq⟩ := mem_reachable_iff.mp hs
  exact mem_reachable_iff.mpr ⟨_, hq.append h⟩

theorem self_mem_dominated {s : α} (hs : s ∈ g.reachable) : s ∈ g.dominated s :=
  mem_dominated_iff.mpr ⟨hs, fun _ hp => hp.last_mem⟩

/-- A path that stays in dominated nodes ends in the subtree. -/
theorem Trail.mem_dominated {s b : α} {p : List α} (h : g.Trail s p b) (hs : s ∈ g.reachable)
    (hp : ∀ c ∈ p, g.Dominates s c) : b ∈ g.dominated s := by
  rcases List.mem_cons.mp h.last_mem with rfl | hmem
  · exact self_mem_dominated hs
  · exact mem_dominated_iff.mpr ⟨h.reachable hs, hp b hmem⟩

/-- **Leaving the region.** The first node of a path that `s` does not dominate is in its frontier. -/
theorem mem_frontier_of_exit {s b c : α} {p q : List α} (h : g.Trail s (p ++ b :: q) c) (hs : s ∈ g.reachable)
    (hp : ∀ d ∈ p, g.Dominates s d) (hb : ¬ g.Dominates s b) : b ∈ g.frontier s := by
  obtain ⟨d, hd, hedge, -⟩ := h.split
  have hdom : d ∈ g.dominated s := hd.mem_dominated hs hp
  have hreach : b ∈ g.reachable := (hd.append (.cons hedge (.nil b))).reachable hs
  have hnodes : ∀ a ∈ g.reachable, a ∈ g.nodes := fun a ha =>
    saturate_subset (Finset.singleton_subset_iff.mpr g.entry_mem) g.succs_mem _ ha
  refine Finset.mem_filter.mpr ⟨hnodes b hreach, ⟨d, hdom, hedge⟩, fun hstrict => ?_⟩
  exact hb (mem_dominated_iff.mp hstrict.1).2

/-- An edge out of the region leads into the frontier. -/
theorem mem_frontier_of_edge {s a b : α} (ha : a ∈ g.dominated s) (hedge : b ∈ g.succs a) (hnode : b ∈ g.nodes)
    (hb : b ∉ g.dominated s) : b ∈ g.frontier s :=
  Finset.mem_filter.mpr ⟨hnode, ⟨a, ha, hedge⟩, fun hstrict => hb hstrict.1⟩

theorem reachable_of_mem_frontier {s b : α} (h : b ∈ g.frontier s) : b ∈ g.reachable := by
  obtain ⟨a, ha, hedge⟩ := (Finset.mem_filter.mp h).2.1
  exact (Trail.cons hedge (.nil b)).reachable (mem_dominated_iff.mp ha).1

end FlowGraph
end SentinelStack.Lib
