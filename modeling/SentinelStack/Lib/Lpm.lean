import Mathlib.Data.List.Pairwise

/- Longest-prefix-match tries of bounded capacity. A key is a datum with a
   prefix length; `bit d i` is the `i`-th bit of a datum in the order the trie
   compares them. An update replaces the value of an equal prefix, or adds a new
   one when there is room. A lookup takes the longest stored prefix of its
   datum.

   A trie whose prefixes all have one length `n` is a finite map on data up to
   agreement on `n` bits: `lookup_eq_some` and `lookup_update` say so. While there is
   room no update is refused, and what is stored is found (`lookup_putEach`). -/
namespace SentinelStack.Lib

variable {D V : Type*}

structure LpmEntry (D V : Type*) where
  plen : Nat
  data : D
  value : V

section agree
variable (bit : D → Nat → Bool)

/-- The data agree on their first `n` bits. -/
def Agree (n : Nat) (a b : D) : Prop := ∀ i < n, bit a i = bit b i

instance (n : Nat) (a b : D) : Decidable (Agree bit n a b) := inferInstanceAs (Decidable (∀ i < n, _))

variable {bit}

theorem Agree.refl (n : Nat) (a : D) : Agree bit n a a := fun _ _ => rfl

theorem Agree.symm {n : Nat} {a b : D} (h : Agree bit n a b) : Agree bit n b a := fun i hi => (h i hi).symm

theorem Agree.trans {n : Nat} {a b c : D} (h : Agree bit n a b) (h' : Agree bit n b c) : Agree bit n a c :=
  fun i hi => (h i hi).trans (h' i hi)

end agree

/-- The entry with the longest prefix, the first of several. -/
def longest : List (LpmEntry D V) → Option (LpmEntry D V)
  | [] => none
  | e :: es =>
    match longest es with
    | none => some e
    | some e' => if e.plen < e'.plen then some e' else some e

theorem longest_mem {es : List (LpmEntry D V)} {e : LpmEntry D V} (h : longest es = some e) : e ∈ es := by
  induction es with
  | nil => cases h
  | cons x es ih =>
    rw [longest] at h
    split at h
    · cases h; exact List.mem_cons_self
    · next e' he' =>
      split at h
      · cases h; exact List.mem_cons_of_mem _ (ih he')
      · cases h; exact List.mem_cons_self

theorem longest_eq_none {es : List (LpmEntry D V)} : longest es = none ↔ es = [] := by
  cases es with
  | nil => simp [longest]
  | cons e es =>
    simp only [longest, reduceCtorEq, iff_false]
    split
    · simp
    · split <;> simp

/-- The entry is stored under the prefix `d/n`. -/
def LpmEntry.Holds (bit : D → Nat → Bool) (n : Nat) (d : D) (e : LpmEntry D V) : Prop :=
  e.plen = n ∧ Agree bit n e.data d

instance (bit : D → Nat → Bool) (n : Nat) (d : D) (e : LpmEntry D V) : Decidable (e.Holds bit n d) :=
  inferInstanceAs (Decidable (_ ∧ _))

/-- The entry with the value `v`, if it is the one under `d/n`. -/
def LpmEntry.revalue (bit : D → Nat → Bool) (n : Nat) (d : D) (v : V) (e : LpmEntry D V) : LpmEntry D V where
  plen := e.plen
  data := e.data
  value := if e.Holds bit n d then v else e.value

/-- A trie of at most `cap` prefixes, no two of them equal. -/
structure LpmTrie (bit : D → Nat → Bool) (cap : Nat) (V : Type*) where
  entries : List (LpmEntry D V)
  count_le : entries.length ≤ cap
  distinct : entries.Pairwise fun a b => ¬ a.Holds bit b.plen b.data

namespace LpmTrie

variable {bit : D → Nat → Bool} {cap : Nat}

def empty : LpmTrie bit cap V := ⟨[], Nat.zero_le _, List.Pairwise.nil⟩

/-- The trie after storing `v` under `d/n`; `none` when there is no room for a new prefix. -/
def update (t : LpmTrie bit cap V) (n : Nat) (d : D) (v : V) : Option (LpmTrie bit cap V) :=
  if hin : ∃ e ∈ t.entries, e.Holds bit n d then
    some ⟨t.entries.map (LpmEntry.revalue bit n d v), by rw [List.length_map]; exact t.count_le,
      List.pairwise_map.mpr t.distinct⟩
  else if hroom : t.entries.length < cap then
    some ⟨t.entries ++ [⟨n, d, v⟩], by rw [List.length_append]; exact hroom, by
      refine List.pairwise_append.mpr ⟨t.distinct, List.pairwise_singleton _ _, fun a ha b hb hab => hin ⟨a, ha, ?_⟩⟩
      rw [List.mem_singleton] at hb
      subst hb
      exact hab⟩
  else none

/-- The value of the longest stored prefix of `d/n`. -/
def lookup (t : LpmTrie bit cap V) (n : Nat) (d : D) : Option V :=
  (longest (t.entries.filter fun e => e.plen ≤ n ∧ Agree bit e.plen e.data d)).map (·.value)

theorem lookup_mem {t : LpmTrie bit cap V} {n : Nat} {d : D} {v : V} (h : t.lookup n d = some v) :
    ∃ e ∈ t.entries, e.value = v := by
  obtain ⟨e, he, rfl⟩ := Option.map_eq_some_iff.mp h
  exact ⟨e, (List.mem_filter.mp (longest_mem he)).1, rfl⟩

/-- What an update does to the entries: the value under the prefix is replaced, or a new
    entry is added where none had the prefix. -/
theorem update_entries {t t' : LpmTrie bit cap V} {n : Nat} {d : D} {v : V} (h : t.update n d v = some t') :
    ((∃ e ∈ t.entries, e.Holds bit n d) ∧ t'.entries = t.entries.map (LpmEntry.revalue bit n d v)) ∨
    ((¬ ∃ e ∈ t.entries, e.Holds bit n d) ∧ t'.entries = t.entries ++ [⟨n, d, v⟩]) := by
  unfold update at h
  split at h
  · next hin => cases h; exact Or.inl ⟨hin, rfl⟩
  · next hin =>
    split at h
    · cases h; exact Or.inr ⟨hin, rfl⟩
    · cases h

/-- An update brings in no value but its own. -/
theorem value_of_mem_update {t t' : LpmTrie bit cap V} {n : Nat} {d : D} {v : V} (h : t.update n d v = some t')
    {e : LpmEntry D V} (he : e ∈ t'.entries) : e.value = v ∨ ∃ x ∈ t.entries, x.value = e.value := by
  rcases update_entries h with ⟨_, heq⟩ | ⟨_, heq⟩
  · rw [heq] at he
    obtain ⟨x, hx, rfl⟩ := List.mem_map.mp he
    by_cases hold : x.Holds bit n d
    · exact Or.inl (by simp [LpmEntry.revalue, hold])
    · exact Or.inr ⟨x, hx, by simp [LpmEntry.revalue, hold]⟩
  · rw [heq] at he
    rcases List.mem_append.mp he with hx | hx
    · exact Or.inr ⟨e, hx, rfl⟩
    · rw [List.mem_singleton] at hx
      exact Or.inl (by rw [hx])

/-- All prefixes have `n` bits. -/
def Uniform (n : Nat) (t : LpmTrie bit cap V) : Prop := ∀ e ∈ t.entries, e.plen = n

theorem uniform_empty (n : Nat) : Uniform n (empty : LpmTrie bit cap V) := by
  intro e he
  cases he

theorem Uniform.update {t t' : LpmTrie bit cap V} {n : Nat} {d : D} {v : V} (ht : t.Uniform n)
    (h : t.update n d v = some t') : t'.Uniform n := by
  intro e he
  rcases update_entries h with ⟨_, heq⟩ | ⟨_, heq⟩
  · rw [heq] at he
    obtain ⟨x, hx, rfl⟩ := List.mem_map.mp he
    exact ht x hx
  · rw [heq] at he
    rcases List.mem_append.mp he with hx | hx
    · exact ht e hx
    · rw [List.mem_singleton] at hx
      rw [hx]

section uniform
variable {t t' : LpmTrie bit cap V} {n m : Nat} (ht : t.Uniform n) (hnm : n ≤ m)

include ht in
/-- Two entries that agree on the prefix are one. -/
theorem Uniform.eq_of_agree {a b : LpmEntry D V} (ha : a ∈ t.entries) (hb : b ∈ t.entries)
    (hab : Agree bit n a.data b.data) : a = b := by
  by_contra hne
  have hsymm : Std.Symm fun a b : LpmEntry D V => ¬ a.Holds bit b.plen b.data :=
    ⟨fun a b h h' => h ⟨h'.1.symm, h'.1 ▸ h'.2.symm⟩⟩
  exact t.distinct.forall ha hb hne ⟨(ht a ha).trans (ht b hb).symm, (ht b hb).symm ▸ hab⟩

include ht hnm in
theorem lookup_eq_some {d : D} {v : V} :
    t.lookup m d = some v ↔ ∃ e ∈ t.entries, Agree bit n e.data d ∧ e.value = v := by
  constructor
  · intro h
    obtain ⟨e, he, rfl⟩ := Option.map_eq_some_iff.mp h
    obtain ⟨hmem, hp⟩ := List.mem_filter.mp (longest_mem he)
    rw [decide_eq_true_eq] at hp
    exact ⟨e, hmem, ht e hmem ▸ hp.2, rfl⟩
  · rintro ⟨e, hmem, hagree, rfl⟩
    have hin : e ∈ t.entries.filter fun e => e.plen ≤ m ∧ Agree bit e.plen e.data d := by
      rw [List.mem_filter, decide_eq_true_eq, ht e hmem]
      exact ⟨hmem, hnm, hagree⟩
    cases hl : longest (t.entries.filter fun e => e.plen ≤ m ∧ Agree bit e.plen e.data d) with
    | none => rw [longest_eq_none.mp hl] at hin; cases hin
    | some x =>
      obtain ⟨hx, hp⟩ := List.mem_filter.mp (longest_mem hl)
      rw [decide_eq_true_eq, ht x hx] at hp
      have : x = e := ht.eq_of_agree hx hmem (hp.2.trans hagree.symm)
      rw [lookup, hl, this]
      rfl

include ht hnm in
/-- A stored value is found by the data that agree with its prefix, and nothing else moves. -/
theorem lookup_update {d : D} {v : V} (h : t.update n d v = some t') (x : D) :
    t'.lookup m x = if Agree bit n d x then some v else t.lookup m x := by
  have ht' := ht.update h
  refine Option.ext fun u => ?_
  rw [lookup_eq_some ht' hnm]
  rcases update_entries h with ⟨⟨e₀, he₀, hold⟩, heq⟩ | ⟨hnone, heq⟩
  · rw [heq]
    by_cases hdx : Agree bit n d x
    · rw [if_pos hdx, Option.some.injEq]
      constructor
      · rintro ⟨_, he, hagree, rfl⟩
        obtain ⟨e, hmem, rfl⟩ := List.mem_map.mp he
        have : e.Holds bit n d := ⟨ht e hmem, hagree.trans hdx.symm⟩
        simp [LpmEntry.revalue, this]
      · rintro rfl
        exact ⟨_, List.mem_map_of_mem he₀, hold.2.trans hdx, by simp [LpmEntry.revalue, hold]⟩
    · rw [if_neg hdx, lookup_eq_some ht hnm]
      have hother : ∀ e : LpmEntry D V, Agree bit n e.data x → (e.revalue bit n d v).value = e.value := by
        intro e he
        have : ¬ e.Holds bit n d := fun hold => hdx (hold.2.symm.trans he)
        simp [LpmEntry.revalue, this]
      constructor
      · rintro ⟨_, he, hagree, rfl⟩
        obtain ⟨e, hmem, rfl⟩ := List.mem_map.mp he
        exact ⟨e, hmem, hagree, (hother e hagree).symm⟩
      · rintro ⟨e, hmem, hagree, rfl⟩
        exact ⟨_, List.mem_map_of_mem hmem, hagree, hother e hagree⟩
  · rw [heq]
    simp only [List.mem_append, List.mem_singleton, or_and_right, exists_or, exists_eq_left]
    by_cases hdx : Agree bit n d x
    · rw [if_pos hdx, Option.some.injEq]
      have hno : ¬ ∃ e ∈ t.entries, Agree bit n e.data x ∧ e.value = u :=
        fun ⟨e, hmem, hagree, _⟩ => hnone ⟨e, hmem, ht e hmem, hagree.trans hdx.symm⟩
      simp [hno, hdx]
    · rw [if_neg hdx, lookup_eq_some ht hnm]
      simp [hdx]

end uniform

/-! Updates while there is room. -/

/-- The trie after an update, which changes nothing when it is refused. -/
def put (t : LpmTrie bit cap V) (n : Nat) (d : D) (v : V) : LpmTrie bit cap V := (t.update n d v).getD t

/-- One value under the prefixes of several data. -/
def putEach (t : LpmTrie bit cap V) (n : Nat) (v : V) (ds : List D) : LpmTrie bit cap V :=
  ds.foldl (fun t d => t.put n d v) t

section room
variable {t : LpmTrie bit cap V} {n m : Nat}

theorem update_of_room (h : t.entries.length < cap) (n : Nat) (d : D) (v : V) : t.update n d v = some (t.put n d v) := by
  have hsome : t.update n d v ≠ none := by
    unfold update
    split
    · exact Option.some_ne_none _
    · exact Option.some_ne_none _
  obtain ⟨t', ht'⟩ := Option.ne_none_iff_exists'.mp hsome
  rw [put, ht', Option.getD_some]

theorem Uniform.put (ht : t.Uniform n) (d : D) (v : V) : (t.put n d v).Uniform n := by
  unfold LpmTrie.put
  cases hup : t.update n d v with
  | none => exact ht
  | some t' => exact ht.update hup

theorem length_put_le (h : t.entries.length < cap) (d : D) (v : V) :
    (t.put n d v).entries.length ≤ t.entries.length + 1 := by
  rcases update_entries (update_of_room h n d v) with ⟨-, heq⟩ | ⟨-, heq⟩
  · rw [heq, List.length_map]
    exact Nat.le_succ _
  · apply Nat.le_of_eq
    rw [heq, List.length_append, List.length_singleton]

theorem lookup_putEach (ht : t.Uniform n) (hnm : n ≤ m) {ds : List D} (hroom : t.entries.length + ds.length ≤ cap) (v : V)
    (x : D) : (t.putEach n v ds).lookup m x = if ∃ d ∈ ds, Agree bit n d x then some v else t.lookup m x := by
  induction ds generalizing t with
  | nil => rw [if_neg (by simp)]; rfl
  | cons d ds ih =>
    rw [List.length_cons] at hroom
    have hput : t.entries.length < cap := by omega
    have hlen := @length_put_le _ _ _ _ t n hput d v
    have hrest := ih (ht.put d v) (by omega)
    rw [lookup_update ht hnm (update_of_room hput n d v)] at hrest
    refine hrest.trans ?_
    by_cases hd : Agree bit n d x
    · rw [if_pos hd, ite_self, if_pos ⟨d, List.mem_cons_self, hd⟩]
    · rw [if_neg hd]
      simp [hd]

end room

end LpmTrie

end SentinelStack.Lib
