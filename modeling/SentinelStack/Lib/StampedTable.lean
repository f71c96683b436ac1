import Mathlib.Data.Finset.Card
import Mathlib.Data.Fintype.Card

/- A table of `n` slots that keeps one stamped entry for each key and recycles its
   oldest one when it is full. Rounds have growing stamps; an entry is stamped with
   the round that wrote it last.

   Main result: `InRound.holds_put` — if a round writes at most `cap` entries and the
   table has room for two rounds (`2 * cap ≤ n`), no entry of this round or of the
   last one is ever recycled: at most `cap` entries have the last stamp and fewer
   than `cap` have this one, so the oldest entry of a full table is older.
   `Tracks.put` — without any bound, what is held for a key is what was written
   last for it. -/
namespace SentinelStack.Lib

structure StampedEntry (K V : Type*) where
  key : K
  stamp : Nat
  value : V

/-- A slot is empty or holds an entry. -/
abbrev StampedTable (n : Nat) (K V : Type*) := Fin n → Option (StampedEntry K V)

namespace StampedTable

variable {n cap : Nat} {K V : Type*} {T : StampedTable n K V}

/-- The slot for a key: its own, or an empty one, or in a full table one with the least stamp. -/
def SlotFor (T : StampedTable n K V) (k : K) (i : Fin n) : Prop :=
  (∃ e, T i = some e ∧ e.key = k) ∨
    (∀ j e, T j = some e → e.key ≠ k) ∧
      (T i = none ∨ (∀ j, T j ≠ none) ∧ ∀ e, T i = some e → ∀ j e', T j = some e' → e.stamp ≤ e'.stamp)

def put (T : StampedTable n K V) (i : Fin n) (e : StampedEntry K V) : StampedTable n K V :=
  Function.update T i (some e)

/-- The slots with a stamp. -/
def stamped (T : StampedTable n K V) (g : Nat) : Finset (Fin n) :=
  Finset.univ.filter fun i => (T i).map (·.stamp) = some g

/-- In round `g`, with `m` entries written so far. -/
structure InRound (T : StampedTable n K V) (cap g m : Nat) : Prop where
  unique : ∀ i j e e', T i = some e → T j = some e' → e.key = e'.key → i = j
  stamp_le : ∀ i e, T i = some e → e.stamp ≤ g
  now : (T.stamped g).card ≤ m
  last : ∀ g', g = g' + 1 → (T.stamped g').card ≤ cap

theorem mem_stamped {g : Nat} {i : Fin n} : i ∈ T.stamped g ↔ ∃ e, T i = some e ∧ e.stamp = g := by
  rw [stamped, Finset.mem_filter, Option.map_eq_some_iff]
  exact and_iff_right (Finset.mem_univ i)

theorem inRound_empty : InRound (fun _ => none : StampedTable n K V) cap 0 0 where
  unique := by
    intro i j e e' h
    cases h
  stamp_le := by
    intro i e h
    cases h
  now := by simp [stamped]
  last := by
    intro g' h
    cases h

/-- The next round begins. -/
theorem InRound.next {g m : Nat} (h : InRound T cap g m) (hm : m ≤ cap) : InRound T cap (g + 1) 0 where
  unique := h.unique
  stamp_le := fun i e he => (h.stamp_le i e he).trans (Nat.le_succ g)
  now := by
    rw [Nat.le_zero, Finset.card_eq_zero, Finset.eq_empty_iff_forall_notMem]
    intro i hi
    obtain ⟨e, he, hstamp⟩ := mem_stamped.mp hi
    have hle := h.stamp_le i e he
    omega
  last := by
    intro g' hg'
    obtain rfl : g = g' := Nat.succ.inj hg'
    exact h.now.trans hm

theorem InRound.mono {g m m' : Nat} (h : InRound T cap g m) (hm : m ≤ m') : InRound T cap g m' :=
  { h with now := h.now.trans hm }

/-- The other slots have other keys. -/
theorem SlotFor.others {k : K} {i : Fin n} (hslot : SlotFor T k i)
    (hunique : ∀ i j e e', T i = some e → T j = some e' → e.key = e'.key → i = j) {j : Fin n} (hj : j ≠ i)
    {e : StampedEntry K V} (he : T j = some e) : e.key ≠ k := by
  rcases hslot with ⟨e', he', hkey⟩ | ⟨habsent, -⟩
  · intro hk
    exact hj (hunique j i e e' he he' (hk.trans hkey.symm))
  · exact habsent j e he

/-- **A full table has an older entry.** -/
theorem InRound.exists_older {g m : Nat} (h : InRound T cap g m) (hm : m < cap) (hroom : cap + cap ≤ n)
    (hfull : ∀ j, T j ≠ none) : ∃ j e, T j = some e ∧ e.stamp + 1 < g := by
  have hsmall : (T.stamped g ∪ T.stamped (g - 1)).card < Fintype.card (Fin n) := by
    rw [Fintype.card_fin]
    have hnow := h.now
    have hunion := Finset.card_union_le (T.stamped g) (T.stamped (g - 1))
    cases g with
    | zero =>
      -- there is no last round
      rw [Nat.zero_sub, Finset.union_self]
      omega
    | succ g =>
      have hlast := h.last g rfl
      rw [Nat.add_sub_cancel] at hunion ⊢
      omega
  obtain ⟨j, hj⟩ := Finset.exists_mem_notMem_of_card_lt_card (s := T.stamped g ∪ T.stamped (g - 1))
    (t := Finset.univ) (by rwa [Finset.card_univ])
  obtain ⟨e, he⟩ := Option.ne_none_iff_exists'.mp (hfull j)
  refine ⟨j, e, he, ?_⟩
  rw [Finset.mem_union, mem_stamped, mem_stamped, not_or] at hj
  have hle := h.stamp_le j e he
  have hnow : e.stamp ≠ g := fun heq => hj.2.1 ⟨e, he, heq⟩
  have hlast : e.stamp ≠ g - 1 := fun heq => hj.2.2 ⟨e, he, heq⟩
  omega

section put
variable {g m : Nat} {k : K} {i : Fin n} (v : V)

/-- What is in a slot after a write: the new entry, or the old one of another slot. -/
theorem put_eq_some {new e : StampedEntry K V} {a : Fin n} (h : T.put i new a = some e) :
    a = i ∧ e = new ∨ a ≠ i ∧ T a = some e := by
  by_cases hai : a = i
  · rw [StampedTable.put, hai, Function.update_self] at h
    exact Or.inl ⟨hai, (Option.some.inj h).symm⟩
  · rw [StampedTable.put, Function.update_of_ne hai] at h
    exact Or.inr ⟨hai, h⟩

/-- A write in the slot for the key leaves one entry for each key. -/
theorem unique_put (hunique : ∀ i j e e', T i = some e → T j = some e' → e.key = e'.key → i = j)
    (hslot : SlotFor T k i) (a b : Fin n) (e e' : StampedEntry K V) (ha : T.put i ⟨k, g, v⟩ a = some e)
    (hb : T.put i ⟨k, g, v⟩ b = some e') (hkey : e.key = e'.key) : a = b := by
  rcases put_eq_some ha with ⟨hai, rfl⟩ | ⟨hai, hold⟩
  · rcases put_eq_some hb with ⟨hbi, -⟩ | ⟨hbi, hold'⟩
    · rw [hai, hbi]
    · exact absurd hkey.symm (hslot.others hunique hbi hold')
  · rcases put_eq_some hb with ⟨-, rfl⟩ | ⟨-, hold'⟩
    · exact absurd hkey (hslot.others hunique hai hold)
    · exact hunique a b e e' hold hold' hkey

/-- A write keeps the round. -/
theorem InRound.put (h : InRound T cap g m) (hslot : SlotFor T k i) :
    InRound (T.put i ⟨k, g, v⟩) cap g (m + 1) where
  unique := unique_put v h.unique hslot
  stamp_le := by
    intro a e ha
    rcases put_eq_some ha with ⟨-, rfl⟩ | ⟨-, hold⟩
    · exact Nat.le_refl g
    · exact h.stamp_le a e hold
  now := by
    have hsub : (T.put i ⟨k, g, v⟩).stamped g ⊆ insert i (T.stamped g) := by
      intro a ha
      rw [Finset.mem_insert]
      obtain ⟨e, he, hstamp⟩ := mem_stamped.mp ha
      rcases put_eq_some he with ⟨hai, -⟩ | ⟨-, hold⟩
      · exact Or.inl hai
      · exact Or.inr (mem_stamped.mpr ⟨e, hold, hstamp⟩)
    calc ((T.put i ⟨k, g, v⟩).stamped g).card
        ≤ (insert i (T.stamped g)).card := Finset.card_le_card hsub
      _ ≤ (T.stamped g).card + 1 := Finset.card_insert_le i _
      _ ≤ m + 1 := Nat.succ_le_succ h.now
  last := by
    intro g' hg'
    refine (Finset.card_le_card ?_).trans (h.last g' hg')
    intro a ha
    obtain ⟨e, he, hstamp⟩ := mem_stamped.mp ha
    rcases put_eq_some he with ⟨-, rfl⟩ | ⟨-, hold⟩
    · exact absurd hstamp (by simp only; omega)
    · exact mem_stamped.mpr ⟨e, hold, hstamp⟩

/-- The table has this entry. -/
def Holds (T : StampedTable n K V) (e : StampedEntry K V) : Prop := ∃ i, T i = some e

theorem holds_put_self : Holds (T.put i ⟨k, g, v⟩) ⟨k, g, v⟩ := ⟨i, Function.update_self ..⟩

/-- **Nothing recent is recycled.** The entries of this round and of the last one stay. -/
theorem InRound.holds_put (h : InRound T cap g m) (hm : m < cap) (hroom : cap + cap ≤ n) (hslot : SlotFor T k i)
    {e : StampedEntry K V} (hholds : Holds T e) (hkey : e.key ≠ k) (hrecent : g ≤ e.stamp + 1) :
    Holds (T.put i ⟨k, g, v⟩) e := by
  obtain ⟨j, hj⟩ := hholds
  refine ⟨j, ?_⟩
  have hji : j ≠ i := by
    rintro rfl
    rcases hslot with ⟨e', he', hkey'⟩ | ⟨-, hempty | ⟨hfull, holdest⟩⟩
    · rw [hj] at he'
      cases he'
      exact hkey hkey'
    · rw [hj] at hempty
      cases hempty
    · obtain ⟨a, e', ha, hold⟩ := h.exists_older hm hroom hfull
      have hle := holdest e hj a e' ha
      omega
  rw [StampedTable.put, Function.update_of_ne hji, hj]

/-- What the table holds for a key is what was written last for it. Recycling loses entries; it
    leaves no stale one. -/
structure Tracks (T : StampedTable n K V) (last : K → Option V) : Prop where
  unique : ∀ i j e e', T i = some e → T j = some e' → e.key = e'.key → i = j
  value_eq : ∀ i e, T i = some e → last e.key = some e.value

theorem tracks_empty (last : K → Option V) : Tracks (fun _ => none : StampedTable n K V) last where
  unique := by
    intro i j e e' h
    cases h
  value_eq := by
    intro i e h
    cases h

/-- **A table tracks its writes**, whatever their stamps are. -/
theorem Tracks.put [DecidableEq K] {last : K → Option V} (h : Tracks T last) (hslot : SlotFor T k i) :
    Tracks (T.put i ⟨k, g, v⟩) (Function.update last k (some v)) where
  unique := unique_put v h.unique hslot
  value_eq := by
    intro a e ha
    rcases put_eq_some ha with ⟨-, rfl⟩ | ⟨hai, hold⟩
    · exact Function.update_self ..
    · -- the entry of another slot has another key
      rw [Function.update_of_ne (hslot.others h.unique hai hold)]
      exact h.value_eq a e hold

end put

end StampedTable

end SentinelStack.Lib
