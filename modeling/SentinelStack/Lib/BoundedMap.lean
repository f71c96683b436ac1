import SentinelStack.Lib.Writes
import Mathlib.Data.List.AList

/- A map that holds at most `cap` keys: an update of a key it holds always
   succeeds, an update of a new one only while there is room. Nothing leaves the
   map unless it is erased, so a key once held stays held (`lookup_put_isSome`). Where all
   the keys that ever come fit, no update is refused and the last one at a key
   wins (`lookup_putAll`); of updates that only insert, the first one wins
   (`lookup_putNewAll`). A walk over the keys by their successors yields all of
   them from a key the map does not hold, and those after it from one it does
   (`walkKeys_of_absent`, `walkKeys_of_mem`). -/
namespace SentinelStack.Lib

/-- At most `cap` keys, each with one value. -/
structure BoundedMap (K V : Type*) (cap : Nat) where
  entries : AList fun _ : K => V
  within : entries.keys.length ≤ cap

namespace BoundedMap

variable {K V : Type*} {cap : Nat}

def empty : BoundedMap K V cap := ⟨∅, Nat.zero_le cap⟩

variable [DecidableEq K]

def lookup (m : BoundedMap K V cap) (k : K) : Option V := m.entries.lookup k

/-- An update of `k` succeeds: the map holds `k`, or has fewer than `cap` keys. -/
def HasRoom (m : BoundedMap K V cap) (k : K) : Prop := k ∈ m.entries.keys ∨ m.entries.keys.length < cap

instance (m : BoundedMap K V cap) (k : K) : Decidable (m.HasRoom k) := inferInstanceAs (Decidable (_ ∨ _))

theorem insert_within {m : BoundedMap K V cap} {k : K} (h : m.HasRoom k) (v : V) :
    (m.entries.insert k v).keys.length ≤ cap := by
  have hm := m.within
  rw [AList.keys_insert, List.length_cons]
  cases h with
  | inl hmem =>
    have hlen := List.length_erase_of_mem hmem
    have hpos := List.length_pos_of_mem hmem
    omega
  | inr hroom =>
    have hlen := List.length_erase_le (a := k) (l := m.entries.keys)
    omega

/-- Insert or overwrite; `none` when the map is full and `k` is new. -/
def update (m : BoundedMap K V cap) (k : K) (v : V) : Option (BoundedMap K V cap) :=
  if h : m.HasRoom k then some ⟨m.entries.insert k v, insert_within h v⟩ else none

/-- The map after an update whose failure goes unnoticed. -/
def put (m : BoundedMap K V cap) (k : K) (v : V) : BoundedMap K V cap := (m.update k v).getD m

/-- The map without `k`, which leaves room for another key. -/
def erase (m : BoundedMap K V cap) (k : K) : BoundedMap K V cap where
  entries := m.entries.erase k
  within := by
    rw [AList.keys_erase]
    exact Nat.le_trans List.length_erase_le m.within

variable {m : BoundedMap K V cap} {k : K} {v : V}

theorem lookup_erase_self : (m.erase k).lookup k = none := AList.lookup_erase k m.entries

theorem lookup_erase_ne {j : K} (hjk : j ≠ k) : (m.erase k).lookup j = m.lookup j := AList.lookup_erase_ne hjk

theorem update_eq_none : m.update k v = none ↔ ¬ m.HasRoom k := by
  unfold update
  split <;> simp_all

theorem put_of_room (h : m.HasRoom k) : (m.put k v).entries = m.entries.insert k v := by
  rw [put, update, dif_pos h, Option.getD_some]

theorem put_of_full (h : ¬ m.HasRoom k) : m.put k v = m := by
  rw [put, update_eq_none.mpr h, Option.getD_none]

theorem lookup_put_self (h : m.HasRoom k) : (m.put k v).lookup k = some v := by
  rw [lookup, put_of_room h]
  exact AList.lookup_insert m.entries

theorem lookup_put_ne {j : K} (hjk : j ≠ k) : (m.put k v).lookup j = m.lookup j := by
  by_cases hroom : m.HasRoom k
  · rw [lookup, put_of_room hroom, AList.lookup_insert_ne hjk]
    rfl
  · rw [put_of_full hroom]

/-- A key once held stays held. -/
theorem lookup_put_isSome {j : K} (h : (m.lookup j).isSome) : ((m.put k v).lookup j).isSome := by
  by_cases hjk : j = k
  · subst hjk
    by_cases hroom : m.HasRoom j
    · rw [lookup_put_self hroom]
      rfl
    · rw [put_of_full hroom]
      exact h
  · rw [lookup_put_ne hjk]
    exact h

/-- A key without room is not held. -/
theorem lookup_of_full (h : ¬ m.HasRoom k) : m.lookup k = none :=
  AList.lookup_eq_none.mpr fun hmem => h (.inl hmem)

theorem keys_put_subset {keys : List K} (hm : m.entries.keys ⊆ keys) (hk : k ∈ keys) :
    (m.put k v).entries.keys ⊆ keys := by
  by_cases hroom : m.HasRoom k
  · rw [put_of_room hroom, AList.keys_insert]
    apply List.cons_subset.mpr ⟨hk, ?_⟩
    exact fun j hj => hm (List.mem_of_mem_erase hj)
  · rw [put_of_full hroom]
    exact hm

/-- Where all the keys that ever come fit, there is always room. -/
theorem hasRoom_of_subset {keys : List K} (hm : m.entries.keys ⊆ keys) (hk : k ∈ keys) (hcap : keys.length ≤ cap) :
    m.HasRoom k := by
  by_cases hmem : k ∈ m.entries.keys
  · exact .inl hmem
  · have hnodup : (k :: m.entries.keys).Nodup := List.nodup_cons.mpr ⟨hmem, m.entries.keys_nodup⟩
    have hlen : (k :: m.entries.keys).length ≤ keys.length :=
      (List.subperm_of_subset hnodup (List.cons_subset.mpr ⟨hk, hm⟩)).length_le
    rw [List.length_cons] at hlen
    exact .inr (by omega)

/-! Sequences of updates. -/

/-- The updates in order, each refusal going unnoticed. -/
def putAll (m : BoundedMap K V cap) (ws : List (K × V)) : BoundedMap K V cap :=
  ws.foldl (fun m w => m.put w.1 w.2) m

theorem putAll_append (m : BoundedMap K V cap) (ws ws' : List (K × V)) :
    m.putAll (ws ++ ws') = (m.putAll ws).putAll ws' := List.foldl_append ..

theorem keys_putAll_subset {keys : List K} (hm : m.entries.keys ⊆ keys) {ws : List (K × V)}
    (hws : ws.map Prod.fst ⊆ keys) : (m.putAll ws).entries.keys ⊆ keys := by
  induction ws generalizing m with
  | nil => exact hm
  | cons w ws ih =>
    obtain ⟨hw, hws⟩ := List.cons_subset.mp hws
    exact ih (keys_put_subset hm hw) hws

theorem lookup_putAll_isSome {j : K} (ws : List (K × V)) (h : (m.lookup j).isSome) :
    ((m.putAll ws).lookup j).isSome := by
  induction ws generalizing m with
  | nil => exact h
  | cons w ws ih => exact ih (lookup_put_isSome h)

/-- **The last update wins**, where all the keys that ever come fit. -/
theorem lookup_putAll (keys : List K) {ws : List (K × V)} (hm : m.entries.keys ⊆ keys)
    (hws : ws.map Prod.fst ⊆ keys) (hcap : keys.length ≤ cap) (j : K) :
    (m.putAll ws).lookup j = (lastFor j ws).or (m.lookup j) := by
  induction ws generalizing m with
  | nil => rfl
  | cons w ws ih =>
    obtain ⟨hw, hws⟩ := List.cons_subset.mp hws
    show ((m.put w.1 w.2).putAll ws).lookup j = _
    rw [ih (keys_put_subset hm hw) hws, lastFor_cons, Option.or_assoc]
    congr 1
    by_cases hj : w.1 = j
    · subst hj
      rw [lookup_put_self (hasRoom_of_subset hm hw hcap)]
      simp
    · rw [lookup_put_ne (Ne.symm hj), if_neg hj, Option.none_or]

/-- The map filled from nothing, where the writes fit. -/
theorem lookup_putAll_empty {ws : List (K × V)} (hcap : ws.length ≤ cap) (j : K) :
    ((empty : BoundedMap K V cap).putAll ws).lookup j = lastFor j ws := by
  rw [lookup_putAll (ws.map Prod.fst) (List.nil_subset _) (List.Subset.refl _) (by simpa using hcap)]
  show (lastFor j ws).or none = _
  rw [Option.or_none]

/-- **Writing over an old map gives a new one**, if and only if every key held is written again. -/
theorem lookup_putAll_eq_fresh_iff {ws : List (K × V)} (hcap : ws.length ≤ cap) :
    (∀ j, (m.putAll ws).lookup j = ((empty : BoundedMap K V cap).putAll ws).lookup j) ↔
      ∀ j, (m.lookup j).isSome → j ∈ ws.map Prod.fst := by
  refine ⟨fun h j hj => ?_, fun h j => ?_⟩
  · have hheld := lookup_putAll_isSome ws hj
    rw [h, lookup_putAll_empty hcap] at hheld
    obtain ⟨v, hv⟩ := Option.isSome_iff_exists.mp hheld
    exact List.mem_map_of_mem (f := Prod.fst) (lastFor_mem hv)
  · have hm : m.entries.keys ⊆ ws.map Prod.fst := by
      intro i hi
      exact h i (AList.lookup_isSome.mpr hi)
    rw [lookup_putAll _ hm (List.Subset.refl _) (by simpa using hcap), lookup_putAll_empty hcap]
    cases hlast : lastFor j ws with
    | some v => rfl
    | none =>
      -- a key held by the old map is written, so nobody can be left over
      rw [Option.none_or]
      cases hold : m.lookup j with
      | none => rfl
      | some v =>
        obtain ⟨w, hw, hwj⟩ := List.mem_map.mp (h j (by rw [hold]; rfl))
        exact absurd hwj (lastFor_eq_none.mp hlast w hw)

/-! Updates that only insert. -/

/-- The map after an update that refuses a key already held, whose failure goes unnoticed. -/
def putNew (m : BoundedMap K V cap) (k : K) (v : V) : BoundedMap K V cap :=
  if (m.lookup k).isSome then m else m.put k v

def putNewAll (m : BoundedMap K V cap) (ws : List (K × V)) : BoundedMap K V cap :=
  ws.foldl (fun m w => m.putNew w.1 w.2) m

theorem keys_putNew_subset {keys : List K} (hm : m.entries.keys ⊆ keys) (hk : k ∈ keys) :
    (m.putNew k v).entries.keys ⊆ keys := by
  unfold putNew
  split
  · exact hm
  · exact keys_put_subset hm hk

/-- **The first update wins**, where all the keys that ever come fit. -/
theorem lookup_putNewAll (keys : List K) {ws : List (K × V)} (hm : m.entries.keys ⊆ keys)
    (hws : ws.map Prod.fst ⊆ keys) (hcap : keys.length ≤ cap) (j : K) :
    (m.putNewAll ws).lookup j = (m.lookup j).or ((ws.find? fun w => w.1 = j).map Prod.snd) := by
  induction ws generalizing m with
  | nil => exact (Option.or_none).symm
  | cons w ws ih =>
    obtain ⟨hw, hws⟩ := List.cons_subset.mp hws
    show ((m.putNew w.1 w.2).putNewAll ws).lookup j = _
    rw [ih (keys_putNew_subset hm hw) hws, List.find?_cons]
    by_cases hj : w.1 = j
    · subst hj
      cases hold : m.lookup w.1 with
      | some v =>
        rw [putNew, if_pos (by rw [hold]; rfl), hold, Option.some_or, Option.some_or]
      | none =>
        rw [putNew, if_neg (by rw [hold]; exact Bool.false_ne_true),
          lookup_put_self (hasRoom_of_subset hm hw hcap)]
        simp
    · have hkeep : (m.putNew w.1 w.2).lookup j = m.lookup j := by
        unfold putNew
        split
        · rfl
        · exact lookup_put_ne (Ne.symm hj)
      rw [hkeep]
      simp [hj]

/-! Walking the keys. -/

/-- The key after `key` in the order of the map, or the first one if the map does not hold `key`. -/
def nextKey (order : List K) (key : K) : Option K :=
  if key ∈ order then (order.dropWhile (· ≠ key)).tail.head? else order.head?

/-- The keys one step after the other, from `key` on. -/
def walkKeys (order : List K) : Nat → K → List K
  | 0, _ => []
  | fuel + 1, key =>
    match nextKey order key with
    | none => []
    | some next => next :: walkKeys order fuel next

theorem nextKey_of_mem {pre post : List K} {key : K} (h : key ∉ pre) :
    nextKey (pre ++ key :: post) key = post.head? := by
  have hdrop : (pre ++ key :: post).dropWhile (· ≠ key) = key :: post := by
    rw [List.dropWhile_append_of_pos fun k hk => decide_eq_true (ne_of_mem_of_not_mem hk h)]
    exact List.dropWhile_cons_of_neg (by simp)
  rw [nextKey, if_pos (by simp), hdrop, List.tail_cons]

/-- From a key of the map, the walk yields the keys after it. -/
theorem walkKeys_of_mem {pre post : List K} {key : K} (h : (pre ++ key :: post).Nodup) {fuel : Nat}
    (hfuel : post.length < fuel) : walkKeys (pre ++ key :: post) fuel key = post := by
  induction post generalizing pre key fuel with
  | nil =>
    obtain ⟨fuel, rfl⟩ := Nat.exists_eq_add_one_of_ne_zero (by omega : fuel ≠ 0)
    have hkey : key ∉ pre := fun hmem => (List.nodup_append.mp h).2.2 key hmem key List.mem_cons_self rfl
    rw [walkKeys, nextKey_of_mem hkey]
    rfl
  | cons next post ih =>
    obtain ⟨fuel, rfl⟩ := Nat.exists_eq_add_one_of_ne_zero (by omega : fuel ≠ 0)
    have hkey : key ∉ pre := fun hmem => (List.nodup_append.mp h).2.2 key hmem key List.mem_cons_self rfl
    rw [walkKeys, nextKey_of_mem hkey]
    show next :: walkKeys (pre ++ key :: next :: post) fuel next = _
    rw [show pre ++ key :: next :: post = (pre ++ [key]) ++ next :: post by simp] at h ⊢
    rw [ih h (by rw [List.length_cons] at hfuel; omega)]

/-- From anything else, it yields all the keys. -/
theorem walkKeys_of_absent {order : List K} (h : order.Nodup) {key : K} (hkey : key ∉ order) {fuel : Nat}
    (hfuel : order.length < fuel) : walkKeys order fuel key = order := by
  obtain ⟨fuel, rfl⟩ := Nat.exists_eq_add_one_of_ne_zero (by omega : fuel ≠ 0)
  rw [walkKeys, nextKey, if_neg hkey]
  cases order with
  | nil => rfl
  | cons first rest =>
    have hlen : rest.length < fuel := by
      rw [List.length_cons] at hfuel
      omega
    have hrest : walkKeys ([] ++ first :: rest) fuel first = rest := walkKeys_of_mem h hlen
    exact congrArg (first :: ·) hrest

end BoundedMap
end SentinelStack.Lib
