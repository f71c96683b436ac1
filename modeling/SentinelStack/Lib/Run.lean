import Mathlib.Data.List.Basic

/- Runs of a deterministic step function. A run is the left fold of the steps
   over a list of events; `Along C` says that every step of the run, taken from
   the state it is taken in, meets `C`. An invariant that every step meeting `C`
   preserves holds at the end of every run along `C` (`Along.inv`), and so at
   every state on the way (`Along.at_split`); if no other step preserves it, it
   holds throughout exactly the runs along `C` (`Along.iff_inv`). -/
namespace SentinelStack.Lib

variable {S E : Type*}

/-- The state after the events `es`, taken in order from `s`. -/
def run (step : S → E → S) (s : S) (es : List E) : S := es.foldl step s

@[simp] theorem run_nil (step : S → E → S) (s : S) : run step s [] = s := rfl

@[simp] theorem run_cons (step : S → E → S) (s : S) (e : E) (es : List E) :
    run step s (e :: es) = run step (step s e) es := rfl

theorem run_append (step : S → E → S) (s : S) (es es' : List E) :
    run step s (es ++ es') = run step (run step s es) es' := List.foldl_append ..

theorem run_snoc (step : S → E → S) (s : S) (es : List E) (e : E) :
    run step s (es ++ [e]) = step (run step s es) e := by
  rw [run_append]; rfl

/-- Every step of the run meets `C`: the state before the step and its event. -/
def Along (step : S → E → S) (C : S → E → Prop) : S → List E → Prop
  | _, [] => True
  | s, e :: es => C s e ∧ Along step C (step s e) es

instance Along.decidable (step : S → E → S) (C : S → E → Prop) [∀ s e, Decidable (C s e)] :
    ∀ s es, Decidable (Along step C s es)
  | _, [] => isTrue trivial
  | s, e :: es =>
    have := Along.decidable step C (step s e) es
    inferInstanceAs (Decidable (C s e ∧ Along step C (step s e) es))

namespace Along

variable {step : S → E → S} {C D : S → E → Prop} {I : S → Prop} {s : S} {es es' : List E}

theorem append : Along step C s (es ++ es') ↔ Along step C s es ∧ Along step C (run step s es) es' := by
  induction es generalizing s with
  | nil => simp [Along]
  | cons e es ih => simp [Along, ih, and_assoc]

/-- The step taken at any split of the run meets `C`. -/
theorem at_split {e : E} (h : Along step C s (es ++ e :: es')) : C (run step s es) e :=
  (append.mp h).2.1

theorem of_prefix {pre : List E} (hpre : pre <+: es) (h : Along step C s es) : Along step C s pre := by
  obtain ⟨post, rfl⟩ := hpre
  exact (append.mp h).1

/-- What holds of the step at every split holds along the run. -/
theorem of_splits (h : ∀ pre e post, es = pre ++ e :: post → C (run step s pre) e) : Along step C s es := by
  induction es generalizing s with
  | nil => trivial
  | cons e es ih =>
    refine ⟨h [] e es rfl, ih ?_⟩
    intro pre e' post hsplit
    exact h (e :: pre) e' post (by rw [hsplit]; rfl)

/-- **The invariant rule.** What every step meeting `C` preserves holds after a run along `C`. -/
theorem inv (hstep : ∀ s e, I s → C s e → I (step s e)) (h : Along step C s es) (h0 : I s) :
    I (run step s es) := by
  induction es generalizing s with
  | nil => exact h0
  | cons e es ih => exact ih h.2 (hstep s e h0 h.1)

/-- Under an invariant, a step property that the invariant and `C` give holds along the run. -/
theorem strengthen (hstep : ∀ s e, I s → C s e → I (step s e))
    (hD : ∀ s e, I s → C s e → D s e) (h : Along step C s es) (h0 : I s) : Along step D s es := by
  induction es generalizing s with
  | nil => trivial
  | cons e es ih => exact ⟨hD s e h0 h.1, ih h.2 (hstep s e h0 h.1)⟩

/-- Where a step along `C` keeps an invariant that gives `P`, and no other step leads to `P`, the
    states of a run all have `P` if and only if the run is along `C`. -/
theorem iff_always {P : S → Prop} (hsafe : ∀ s, I s → P s) (hkeep : ∀ s e, I s → C s e → I (step s e))
    (honly : ∀ s e, I s → P (step s e) → C s e) (h0 : I s) :
    (∀ pre, pre <+: es → P (run step s pre)) ↔ Along step C s es := by
  induction es generalizing s with
  | nil =>
    refine ⟨fun _ => trivial, fun _ pre hpre => ?_⟩
    rw [List.prefix_nil.mp hpre]
    exact hsafe s h0
  | cons e es ih =>
    constructor
    · intro h
      have h1 : C s e := honly s e h0 (h [e] ⟨es, rfl⟩)
      refine ⟨h1, (ih (hkeep s e h0 h1)).mp fun pre hpre => ?_⟩
      exact h (e :: pre) (List.cons_prefix_cons.mpr ⟨rfl, hpre⟩)
    · intro h pre hpre
      cases pre with
      | nil => exact hsafe s h0
      | cons e' pre =>
        obtain ⟨rfl, htail⟩ := List.cons_prefix_cons.mp hpre
        exact (ih (hkeep s e' h0 h.1)).mpr h.2 pre htail

/-- **The exact condition.** Where a step keeps the invariant if and only if it meets `C`, the
    invariant holds at every state of a run if and only if the run is along `C`. -/
theorem iff_inv (hstep : ∀ s e, I s → (I (step s e) ↔ C s e)) (h0 : I s) :
    (∀ pre, pre <+: es → I (run step s pre)) ↔ Along step C s es :=
  iff_always (fun _ h => h) (fun s e h => (hstep s e h).mpr) (fun s e h => (hstep s e h).mp) h0

end Along

/-- An invariant that every step preserves holds after every run. -/
theorem run_inv {step : S → E → S} {I : S → Prop} {s : S} (hstep : ∀ s e, I s → I (step s e))
    (h0 : I s) (es : List E) : I (run step s es) := by
  induction es generalizing s with
  | nil => exact h0
  | cons e es ih => exact ih (hstep s e h0)

/-- A run that keeps one of two values at each step ends with the extreme of the values it met. -/
theorem run_pick {pick : S → S → S} {le : S → S → Prop} (hrefl : ∀ a, le a a)
    (htrans : ∀ a b c, le a b → le b c → le a c)
    (hpick : ∀ a b, (pick a b = a ∨ pick a b = b) ∧ le (pick a b) a ∧ le (pick a b) b) (a : S) (l : List S) :
    run pick a l ∈ a :: l ∧ ∀ x ∈ a :: l, le (run pick a l) x := by
  induction l generalizing a with
  | nil =>
    refine ⟨List.mem_cons_self, fun x hx => ?_⟩
    rw [List.mem_singleton.mp hx]
    exact hrefl a
  | cons b l ih =>
    obtain ⟨hone, hlea, hleb⟩ := hpick a b
    obtain ⟨hmem, hle⟩ := ih (pick a b)
    rw [run_cons]
    generalize run pick (pick a b) l = result at hmem hle ⊢
    have hresult := hle (pick a b) List.mem_cons_self
    refine ⟨?_, fun x hx => ?_⟩
    · rcases List.mem_cons.mp hmem with heq | hrest
      · rw [heq]
        rcases hone with h | h
        · rw [h]
          exact List.mem_cons_self
        · rw [h]
          exact List.mem_cons_of_mem a List.mem_cons_self
      · exact List.mem_cons_of_mem a (List.mem_cons_of_mem b hrest)
    · rcases List.mem_cons.mp hx with rfl | hx
      · exact htrans _ _ _ hresult hlea
      rcases List.mem_cons.mp hx with rfl | hx
      · exact htrans _ _ _ hresult hleb
      · exact hle x (List.mem_cons_of_mem _ hx)

end SentinelStack.Lib
