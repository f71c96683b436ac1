import Mathlib.Data.Option.Basic

/- Transition systems with silent steps.

   A step shows a label or is silent; `Shows` collects what a run shows. If every
   step of one system is answered by a run of another that shows the same, so is
   every run (`Simulates.run`). `Shows.inv` is the invariant rule, for states,
   and `Shows.labels` for what is shown. -/
namespace SentinelStack.Lib

/-- A step from a state to a state that shows a label, or none. -/
abbrev StepRel (S L : Type*) := S → Option L → S → Prop

variable {S T L : Type*}

/-- A run, with the labels that its steps show. -/
inductive Shows (step : StepRel S L) : S → List L → S → Prop
  | nil (s : S) : Shows step s [] s
  | cons {s s' s'' : S} {o : Option L} {ls : List L} :
      step s o s' → Shows step s' ls s'' → Shows step s (o.toList ++ ls) s''

namespace Shows

variable {step : StepRel S L} {s s' s'' : S} {ls ls' : List L}

theorem single {o : Option L} (h : step s o s') : Shows step s o.toList s' := by
  have hrun := cons h (nil s')
  rwa [List.append_nil] at hrun

theorem append (h : Shows step s ls s') (h' : Shows step s' ls' s'') : Shows step s (ls ++ ls') s'' := by
  induction h with
  | nil _ => exact h'
  | cons hstep _ ih =>
    rw [List.append_assoc]
    exact cons hstep (ih h')

/-- **The invariant rule.** -/
theorem inv {I : S → Prop} (hstep : ∀ s o s', I s → step s o s' → I s') (h : Shows step s ls s') (h0 : I s) :
    I s' := by
  induction h with
  | nil _ => exact h0
  | cons hfirst _ ih => exact ih (hstep _ _ _ h0 hfirst)

theorem labels {I : S → Prop} {Q : L → Prop}
    (hstep : ∀ s o s', I s → step s o s' → I s' ∧ ∀ l, o = some l → Q l) (h : Shows step s ls s') (h0 : I s) :
    ∀ l ∈ ls, Q l := by
  induction h with
  | nil _ => simp
  | @cons s s' s'' o ls hfirst _ ih =>
    obtain ⟨hI, hQ⟩ := hstep _ _ _ h0 hfirst
    intro l hl
    rcases List.mem_append.mp hl with ho | hrest
    · exact hQ l (Option.mem_toList.mp ho)
    · exact ih hI l hrest

end Shows

/-- Every step of `A` is answered by a run of `B` that shows the same and leads back into `R`. -/
def Simulates (A : StepRel S L) (B : StepRel T L) (R : S → T → Prop) : Prop :=
  ∀ ⦃s t o s'⦄, R s t → A s o s' → ∃ t', Shows B t o.toList t' ∧ R s' t'

theorem Simulates.run {A : StepRel S L} {B : StepRel T L} {R : S → T → Prop} (h : Simulates A B R) {s s' : S} {t : T}
    {ls : List L} (hrun : Shows A s ls s') (hR : R s t) : ∃ t', Shows B t ls t' ∧ R s' t' := by
  induction hrun generalizing t with
  | nil _ => exact ⟨t, Shows.nil t, hR⟩
  | cons hstep _ ih =>
    obtain ⟨u, hu, hRu⟩ := h hR hstep
    obtain ⟨v, hv, hRv⟩ := ih hRu
    exact ⟨v, hu.append hv, hRv⟩

end SentinelStack.Lib
