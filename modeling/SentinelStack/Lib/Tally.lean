import Mathlib.Data.List.Induction

/- Tables of rows that events are entered in: the row of an event's key is found by
   a scan, or added at the end while the table has fewer than `cap` rows. The table
   of a whole sequence of events has a row for each of the first `cap` keys, in the
   order in which they came up, with exactly the events of that key (`tally_eq`). -/
namespace SentinelStack.Lib

/-- What a table is about: the key of an event, the key of a row, a row without events and how an event
    is entered. -/
structure TallyOps (K R E : Type*) where
  eventKey : E → K
  rowKey : R → K
  fresh : K → R
  enter : R → E → R
  rowKey_fresh : ∀ k, rowKey (fresh k) = k
  rowKey_enter : ∀ r e, rowKey (enter r e) = rowKey r

namespace TallyOps

variable {K R E : Type*} (t : TallyOps K R E)

@[simp] theorem rowKey_foldl (es : List E) (r : R) : t.rowKey (es.foldl t.enter r) = t.rowKey r := by
  induction es generalizing r with
  | nil => rfl
  | cons e es ih => rw [List.foldl_cons, ih, t.rowKey_enter]

variable [DecidableEq K] (cap : Nat)

/-- Enter an event in the first row of its key. -/
def enterFirst (e : E) : List R → List R
  | [] => []
  | r :: rows => if t.rowKey r = t.eventKey e then t.enter r e :: rows else r :: enterFirst e rows

/-- Enter an event; one without a row and without room for it is dropped. -/
def enterInto (rows : List R) (e : E) : List R :=
  if rows.any (t.rowKey · = t.eventKey e) then t.enterFirst e rows
  else if rows.length < cap then rows ++ [t.enter (t.fresh (t.eventKey e)) e]
  else rows

def tally (es : List E) : List R := es.foldl (t.enterInto cap) []

/-- The row of a key after a sequence of events. -/
def rowOf (es : List E) (k : K) : R := (es.filter (t.eventKey · = k)).foldl t.enter (t.fresh k)

@[simp] theorem rowKey_rowOf (es : List E) (k : K) : t.rowKey (t.rowOf es k) = k := by
  simp [rowOf, t.rowKey_fresh]

theorem rowOf_snoc (es : List E) (e : E) (k : K) :
    t.rowOf (es ++ [e]) k = if t.eventKey e = k then t.enter (t.rowOf es k) e else t.rowOf es k := by
  unfold rowOf
  rw [List.filter_append, List.foldl_append]
  by_cases h : t.eventKey e = k <;> simp [h]

/-- A key that has not come up has the row without events. -/
theorem rowOf_of_not_mem {es : List E} {k : K} (h : k ∉ es.map t.eventKey) : t.rowOf es k = t.fresh k := by
  have hnone : es.filter (t.eventKey · = k) = [] := by
    apply List.filter_eq_nil_iff.mpr
    intro e he hk
    exact h (List.mem_map.mpr ⟨e, he, of_decide_eq_true hk⟩)
  rw [rowOf, hnone]
  rfl

theorem eraseDups_snoc (ks : List K) (k : K) :
    (ks ++ [k]).eraseDups = if k ∈ ks then ks.eraseDups else ks.eraseDups ++ [k] := by
  rw [List.eraseDups_append]
  by_cases h : k ∈ ks <;> simp [List.removeAll, List.eraseDups_cons, h]

theorem nodup_eraseDups (ks : List K) : ks.eraseDups.Nodup := by
  induction ks using List.reverseRecOn with
  | nil => simp
  | append_singleton ks k ih =>
    rw [eraseDups_snoc]
    split
    · exact ih
    · rename_i hk
      apply List.nodup_append.mpr
      refine ⟨ih, by simp, fun a ha b hb hab => hk ?_⟩
      rw [← List.mem_singleton.mp hb, ← hab]
      exact List.mem_eraseDups.mp ha

section rows

variable (es : List E) (e : E)

theorem map_rowOf_snoc {ks : List K} (h : t.eventKey e ∉ ks) :
    ks.map (t.rowOf (es ++ [e])) = ks.map (t.rowOf es) := by
  refine List.map_congr_left fun k hk => ?_
  rw [rowOf_snoc, if_neg fun heq => h (by rwa [heq])]

/-- Where no key has two rows, the row of the event's key is the only one that changes. -/
theorem enterFirst_rows : ∀ {ks : List K}, ks.Nodup →
    t.enterFirst e (ks.map (t.rowOf es)) = ks.map (t.rowOf (es ++ [e]))
  | [], _ => rfl
  | k :: ks, h => by
    obtain ⟨hk, hks⟩ := List.nodup_cons.mp h
    rw [List.map_cons, List.map_cons, enterFirst, rowKey_rowOf, rowOf_snoc]
    by_cases heq : k = t.eventKey e
    · subst heq
      rw [if_pos rfl, if_pos rfl, t.map_rowOf_snoc es e hk]
    · rw [if_neg heq, if_neg (Ne.symm heq), enterFirst_rows hks]

theorem any_rowKey (ks : List K) :
    (ks.map (t.rowOf es)).any (t.rowKey · = t.eventKey e) = true ↔ t.eventKey e ∈ ks := by
  simp

end rows

/-- **The table of a sequence of events.** -/
theorem tally_eq (es : List E) :
    t.tally cap es = ((es.map t.eventKey).eraseDups.take cap).map (t.rowOf es) := by
  induction es using List.reverseRecOn with
  | nil => simp [tally]
  | append_singleton es e ih =>
    have hstep : t.tally cap (es ++ [e]) = t.enterInto cap (t.tally cap es) e := by
      simp [tally, List.foldl_append]
    rw [hstep, ih, List.map_append, List.map_singleton, eraseDups_snoc]
    unfold enterInto
    by_cases hrow : t.eventKey e ∈ (es.map t.eventKey).eraseDups.take cap
    · have hmem : t.eventKey e ∈ es.map t.eventKey := List.mem_eraseDups.mp (List.mem_of_mem_take hrow)
      rw [if_pos ((t.any_rowKey es e _).mpr hrow), if_pos hmem,
        t.enterFirst_rows es e ((nodup_eraseDups _).sublist (List.take_sublist _ _))]
    · rw [if_neg fun h => hrow ((t.any_rowKey es e _).mp h), List.length_map, List.length_take]
      by_cases hmem : t.eventKey e ∈ es.map t.eventKey
      · -- the key came up when the table was full
        rw [if_pos hmem, t.map_rowOf_snoc es e hrow, if_neg]
        intro hroom
        apply hrow
        rw [List.take_of_length_le (by omega)]
        exact List.mem_eraseDups.mpr hmem
      · rw [if_neg hmem]
        by_cases hroom : (es.map t.eventKey).eraseDups.length < cap
        · have hnew := t.map_rowOf_snoc es e (mt List.mem_eraseDups.mp hmem)
          rw [if_pos (by omega), List.take_of_length_le (by omega), List.take_of_length_le (by simp; omega),
            List.map_append, hnew]
          simp [rowOf_snoc, t.rowOf_of_not_mem hmem]
        · rw [if_neg (by omega), List.take_append_of_le_length (by omega), t.map_rowOf_snoc es e hrow]

end TallyOps
end SentinelStack.Lib
