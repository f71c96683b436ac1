import Mathlib.Data.List.Basic
import Mathlib.Logic.Function.Basic

/- Sequences of writes to a map. `writeAll m ws` is the map `m` after the writes
   `ws` in order; `lastFor k ws` is the last value written at `k`. The one law
   used everywhere is `writeAll_apply`: the last write wins, and a key nobody
   writes keeps what it had. -/
namespace SentinelStack.Lib

variable {K V : Type*} [DecidableEq K]

/-- The map after the writes, in order. -/
def writeAll (m : K → Option V) (ws : List (K × V)) : K → Option V :=
  ws.foldl (fun m w => Function.update m w.1 (some w.2)) m

/-- The last value written at `k`. -/
def lastFor (k : K) : List (K × V) → Option V
  | [] => none
  | w :: ws => (lastFor k ws).or (if w.1 = k then some w.2 else none)

@[simp] theorem lastFor_nil (k : K) : lastFor k ([] : List (K × V)) = none := rfl

@[simp] theorem lastFor_cons (k : K) (w : K × V) (ws : List (K × V)) :
    lastFor k (w :: ws) = (lastFor k ws).or (if w.1 = k then some w.2 else none) := rfl

theorem lastFor_append (k : K) (ws ws' : List (K × V)) :
    lastFor k (ws ++ ws') = (lastFor k ws').or (lastFor k ws) := by
  induction ws with
  | nil => simp
  | cons w ws ih => simp [ih, Option.or_assoc]

theorem lastFor_eq_none {k : K} {ws : List (K × V)} : lastFor k ws = none ↔ ∀ w ∈ ws, w.1 ≠ k := by
  induction ws with
  | nil => simp
  | cons w ws ih =>
    by_cases h : w.1 = k <;> simp [h, ih]

theorem lastFor_mem {k : K} {v : V} {ws : List (K × V)} (h : lastFor k ws = some v) : (k, v) ∈ ws := by
  induction ws with
  | nil => simp at h
  | cons w ws ih =>
    cases hr : lastFor k ws with
    | some v' =>
      rw [lastFor_cons, hr] at h
      exact List.mem_cons_of_mem _ (ih (by rw [hr]; exact h))
    | none =>
      rw [lastFor_cons, hr, Option.none_or] at h
      split at h
      · next hk => cases h; subst hk; exact List.mem_cons_self
      · cases h

/-- The last of the elements written at `k` gives the value. -/
theorem lastFor_map {A : Type*} (k : K) (f : A → K) (g : A → V) (xs : List A) :
    lastFor k (xs.map fun x => (f x, g x)) = (xs.filter fun x => f x = k).getLast?.map g := by
  induction xs with
  | nil => rfl
  | cons x xs ih =>
    rw [List.map_cons, lastFor_cons, ih, List.filter_cons]
    by_cases h : f x = k
    · rw [if_pos h, if_pos (by simpa using h), List.getLast?_cons]
      cases (xs.filter fun x => f x = k).getLast? <;> rfl
    · rw [if_neg h, if_neg (by simpa using h), Option.or_none]

/-- One value written at many keys. -/
theorem lastFor_map_const {A : Type*} (k : K) (f : A → K) (v : V) (xs : List A) :
    lastFor k (xs.map fun x => (f x, v)) = if ∃ x ∈ xs, f x = k then some v else none := by
  split
  · next h =>
    cases hl : lastFor k (xs.map fun x => (f x, v)) with
    | none =>
      obtain ⟨x, hx, hfx⟩ := h
      exact absurd hfx (lastFor_eq_none.mp hl _ (List.mem_map_of_mem hx))
    | some u =>
      obtain ⟨x, _, heq⟩ := List.mem_map.mp (lastFor_mem hl)
      rw [Prod.mk.injEq] at heq
      rw [heq.2]
  · next h =>
    rw [lastFor_eq_none]
    intro w hw heq
    obtain ⟨x, hx, rfl⟩ := List.mem_map.mp hw
    exact h ⟨x, hx, heq⟩

@[simp] theorem writeAll_nil (m : K → Option V) : writeAll m [] = m := rfl

@[simp] theorem writeAll_cons (m : K → Option V) (w : K × V) (ws : List (K × V)) :
    writeAll m (w :: ws) = writeAll (Function.update m w.1 (some w.2)) ws := rfl

theorem writeAll_append (m : K → Option V) (ws ws' : List (K × V)) :
    writeAll m (ws ++ ws') = writeAll (writeAll m ws) ws' := List.foldl_append ..

/-- **The last write wins.** -/
theorem writeAll_apply (m : K → Option V) (ws : List (K × V)) (k : K) :
    writeAll m ws k = (lastFor k ws).or (m k) := by
  induction ws generalizing m with
  | nil => simp
  | cons w ws ih =>
    rw [writeAll_cons, ih, lastFor_cons, Option.or_assoc]
    congr 1
    by_cases h : w.1 = k
    · subst h; simp
    · simp [h, Function.update_of_ne (Ne.symm h)]

/-- A key that is written once keeps its value. -/
theorem writeAll_append_of_nodup {ws ws' : List (K × V)} (h : ((ws ++ ws').map (·.1)).Nodup) {k : K} {v : V}
    (hk : writeAll (fun _ => none) ws k = some v) : writeAll (fun _ => none) (ws ++ ws') k = some v := by
  rw [writeAll_apply, Option.or_none] at hk ⊢
  have hlater : lastFor k ws' = none := by
    rw [lastFor_eq_none]
    intro w hw heq
    rw [List.map_append, List.nodup_append] at h
    exact h.2.2 k (List.mem_map.mpr ⟨(k, v), lastFor_mem hk, rfl⟩) w.1 (List.mem_map_of_mem hw) heq.symm
  rw [lastFor_append, hlater, Option.none_or, hk]

/-! Places in a log that grew. -/

section logs
variable {α : Type*} {l l' pre post : List α} {w : α}

/-- A place inside the old log splits the old log. -/
theorem split_of_append_eq (h : l ++ l' = pre ++ w :: post) (hin : pre.length < l.length) :
    ∃ post', l = pre ++ w :: post' := by
  rcases List.append_eq_append_iff.mp h with ⟨c, hpre, _⟩ | ⟨c, hl, hc⟩
  · rw [hpre, List.length_append] at hin
    omega
  · cases c with
    | nil => rw [hl] at hin; simp at hin
    | cons x c => rw [List.cons_append, List.cons.injEq] at hc; exact ⟨c, by rw [hl, hc.1]⟩

/-- A place past the old log is in what was appended. -/
theorem mem_of_append_eq (h : l ++ l' = pre ++ w :: post) (hout : l.length ≤ pre.length) : w ∈ l' := by
  rcases List.append_eq_append_iff.mp h with ⟨c, _, hl'⟩ | ⟨c, hl, hc⟩
  · rw [hl']; simp
  · cases c with
    | nil => rw [List.nil_append] at hc; rw [← hc]; exact List.mem_cons_self
    | cons x c => rw [hl, List.length_append, List.length_cons] at hout; omega

end logs

end SentinelStack.Lib
