import Mathlib.Algebra.Order.Group.Multiset
import Mathlib.Data.Fintype.EquivFin
import Mathlib.Data.Multiset.AddSub

/- Programs that acquire, use and release handles, and a logic for them.

   A handle has a kind and a number: a descriptor, or the address of an object. The
   system gives out a number that is not in use, or refuses; what it answers to a
   question is any answer that is allowed. To use or to release a handle that is not
   there is a fault.

   `Owns pre p post` says that `p`, from any ledger that has the handles `pre` and no
   handle twice, does not fault and leaves handles of `post` in place of `pre`, and
   everything else as it was. The frame is part of the triple, so the rules at the
   end of the file go from one call to the next. `Owns.run` is what a triple says of
   the runs. -/
namespace SentinelStack.Lib

/-- `C` are the calls that acquire a handle, `Q` the questions to the system. -/
inductive SysProg (K C Q : Type) (A : Q → Type) (α : Type) : Type
  | done (a : α) : SysProg K C Q A α
  | acquire (c : C) (next : Option Nat → SysProg K C Q A α) : SysProg K C Q A α
  | release (h : K × Nat) (next : SysProg K C Q A α) : SysProg K C Q A α
  | use (h : K × Nat) (next : SysProg K C Q A α) : SysProg K C Q A α
  | ask (q : Q) (next : A q → SysProg K C Q A α) : SysProg K C Q A α

/-- The handles that are there. -/
abbrev Ledger (K : Type) := Multiset (K × Nat)

abbrev just {K : Type} (k : K) (n : Nat) : Ledger K := {(k, n)}

variable {K C Q : Type} {A : Q → Type} {α β : Type}

namespace SysProg

def bind (p : SysProg K C Q A α) (f : α → SysProg K C Q A β) : SysProg K C Q A β :=
  match p with
  | done a => f a
  | acquire c next => acquire c fun r => (next r).bind f
  | release h next => release h (next.bind f)
  | use h next => use h (next.bind f)
  | ask q next => ask q fun a => (next a).bind f

instance : Monad (SysProg K C Q A) where
  pure := done
  bind := bind

end SysProg

def acquire (c : C) : SysProg K C Q A (Option Nat) := .acquire c .done

def release (h : K × Nat) : SysProg K C Q A Unit := .release h (.done ())

def use (h : K × Nat) : SysProg K C Q A Unit := .use h (.done ())

def ask (q : Q) : SysProg K C Q A (A q) := .ask q .done

/-! Runs. -/

inductive Outcome (K α : Type)
  | ended (a : α) (ledger : Ledger K)
  | fault

section logic

variable [DecidableEq K] (kind : C → K) (allowed : (q : Q) → A q → Prop)

/-- A run of a program from a ledger to its outcome. -/
inductive SysRun : SysProg K C Q A α → Ledger K → Outcome K α → Prop
  | done (a : α) (l : Ledger K) : SysRun (.done a) l (.ended a l)
  | refused {c : C} {next : Option Nat → SysProg K C Q A α} {l : Ledger K} {r : Outcome K α} :
      SysRun (next none) l r → SysRun (.acquire c next) l r
  | acquired {c : C} {next : Option Nat → SysProg K C Q A α} {l : Ledger K} {r : Outcome K α} {n : Nat} :
      (kind c, n) ∉ l → SysRun (next (some n)) ((kind c, n) ::ₘ l) r → SysRun (.acquire c next) l r
  | released {h : K × Nat} {next : SysProg K C Q A α} {l : Ledger K} {r : Outcome K α} :
      h ∈ l → SysRun next (l.erase h) r → SysRun (.release h next) l r
  | notReleased {h : K × Nat} {next : SysProg K C Q A α} {l : Ledger K} : h ∉ l → SysRun (.release h next) l .fault
  | used {h : K × Nat} {next : SysProg K C Q A α} {l : Ledger K} {r : Outcome K α} :
      h ∈ l → SysRun next l r → SysRun (.use h next) l r
  | notUsed {h : K × Nat} {next : SysProg K C Q A α} {l : Ledger K} : h ∉ l → SysRun (.use h next) l .fault
  | asked {q : Q} {next : A q → SysProg K C Q A α} {l : Ledger K} {r : Outcome K α} {a : A q} :
      allowed q a → SysRun (next a) l r → SysRun (.ask q next) l r

/-- Every run from the ledger ends, without a fault, in the postcondition. -/
def wp : SysProg K C Q A α → (α → Ledger K → Prop) → Ledger K → Prop
  | .done a, Φ, l => Φ a l
  | .acquire c next, Φ, l => wp (next none) Φ l ∧ ∀ n, (kind c, n) ∉ l → wp (next (some n)) Φ ((kind c, n) ::ₘ l)
  | .release h next, Φ, l => h ∈ l ∧ wp next Φ (l.erase h)
  | .use h next, Φ, l => h ∈ l ∧ wp next Φ l
  | .ask q next, Φ, l => ∀ a, allowed q a → wp (next a) Φ l

theorem wp_iff_run (p : SysProg K C Q A α) (Φ : α → Ledger K → Prop) (l : Ledger K) :
    wp kind allowed p Φ l ↔ ∀ r, SysRun kind allowed p l r → ∃ a l', r = .ended a l' ∧ Φ a l' := by
  induction p generalizing l with
  | done a =>
    constructor
    · intro h r hrun
      cases hrun
      exact ⟨a, l, rfl, h⟩
    · intro h
      obtain ⟨_, _, heq, hΦ⟩ := h _ (SysRun.done a l)
      cases heq
      exact hΦ
  | acquire c next ih =>
    constructor
    · rintro ⟨hnone, hsome⟩ r hrun
      cases hrun with
      | refused hrun => exact (ih none l).mp hnone r hrun
      | acquired hn hrun => exact (ih _ _).mp (hsome _ hn) r hrun
    · intro h
      exact ⟨(ih none l).mpr fun r hrun => h r (.refused hrun),
        fun n hn => (ih _ _).mpr fun r hrun => h r (.acquired hn hrun)⟩
  | release x next ih =>
    constructor
    · rintro ⟨hx, hnext⟩ r hrun
      cases hrun with
      | released _ hrun => exact (ih _).mp hnext r hrun
      | notReleased hx' => exact absurd hx hx'
    · intro h
      have hx : x ∈ l := by
        by_contra hx
        obtain ⟨_, _, heq, -⟩ := h _ (SysRun.notReleased hx)
        cases heq
      exact ⟨hx, (ih _).mpr fun r hrun => h r (.released hx hrun)⟩
  | use x next ih =>
    constructor
    · rintro ⟨hx, hnext⟩ r hrun
      cases hrun with
      | used _ hrun => exact (ih _).mp hnext r hrun
      | notUsed hx' => exact absurd hx hx'
    · intro h
      have hx : x ∈ l := by
        by_contra hx
        obtain ⟨_, _, heq, -⟩ := h _ (SysRun.notUsed hx)
        cases heq
      exact ⟨hx, (ih _).mpr fun r hrun => h r (.used hx hrun)⟩
  | ask q next ih =>
    constructor
    · intro h r hrun
      cases hrun with
      | asked ha hrun => exact (ih _ _).mp (h _ ha) r hrun
    · intro h a ha
      exact (ih a l).mpr fun r hrun => h r (.asked ha hrun)

variable {kind allowed}

/-- Runs one after the other. -/
theorem SysRun.bind {p : SysProg K C Q A α} {f : α → SysProg K C Q A β} {l l' : Ledger K} {a : α} {r : Outcome K β}
    (h : SysRun kind allowed p l (.ended a l')) (hf : SysRun kind allowed (f a) l' r) :
    SysRun kind allowed (p >>= f) l r := by
  generalize ho : Outcome.ended a l' = o at h
  induction h with
  | done a l =>
    cases ho
    exact hf
  | refused _ ih => exact .refused (ih ho)
  | acquired hn _ ih => exact .acquired hn (ih ho)
  | released hx _ ih => exact .released hx (ih ho)
  | notReleased => cases ho
  | used hx _ ih => exact .used hx (ih ho)
  | notUsed => cases ho
  | asked ha _ ih => exact .asked ha (ih ho)

/-- A fault ends the run. -/
theorem SysRun.bind_fault {p : SysProg K C Q A α} {f : α → SysProg K C Q A β} {l : Ledger K}
    (h : SysRun kind allowed p l .fault) : SysRun kind allowed (p >>= f) l .fault := by
  generalize ho : Outcome.fault = o at h
  induction h with
  | done a l => cases ho
  | refused _ ih => exact .refused (ih ho)
  | acquired hn _ ih => exact .acquired hn (ih ho)
  | released hx _ ih => exact .released hx (ih ho)
  | notReleased hx => exact .notReleased hx
  | used hx _ ih => exact .used hx (ih ho)
  | notUsed hx => exact .notUsed hx
  | asked ha _ ih => exact .asked ha (ih ho)

omit [DecidableEq K] in
/-- There is always a number that is not in use. -/
theorem exists_fresh (k : K) (l : Ledger K) : ∃ n, (k, n) ∉ l := by
  classical
  obtain ⟨n, hn⟩ := Infinite.exists_notMem_finset ((l.map Prod.snd).toFinset)
  exact ⟨n, fun hmem => hn (Multiset.mem_toFinset.mpr (Multiset.mem_map_of_mem Prod.snd hmem))⟩

theorem wp_bind (p : SysProg K C Q A α) (f : α → SysProg K C Q A β) (Φ : β → Ledger K → Prop) (l : Ledger K) :
    wp kind allowed (p >>= f) Φ l ↔ wp kind allowed p (fun a l => wp kind allowed (f a) Φ l) l := by
  show wp kind allowed (p.bind f) Φ l ↔ _
  induction p generalizing l with
  | done a => exact Iff.rfl
  | acquire c next ih => exact and_congr (ih none l) (forall_congr' fun n => imp_congr Iff.rfl (ih (some n) _))
  | release h next ih => exact and_congr Iff.rfl (ih _)
  | use h next ih => exact and_congr Iff.rfl (ih l)
  | ask q next ih => exact forall_congr' fun a => imp_congr Iff.rfl (ih a l)

theorem wp_mono {p : SysProg K C Q A α} {Φ Ψ : α → Ledger K → Prop} {l : Ledger K} (h : wp kind allowed p Φ l)
    (himp : ∀ a l, Φ a l → Ψ a l) : wp kind allowed p Ψ l := by
  induction p generalizing l with
  | done a => exact himp a l h
  | acquire c next ih => exact ⟨ih none h.1, fun n hn => ih (some n) (h.2 n hn)⟩
  | release x next ih => exact ⟨h.1, ih h.2⟩
  | use x next ih => exact ⟨h.1, ih h.2⟩
  | ask q next ih => exact fun a ha => ih a (h a ha)

/-! The triple. -/

variable (kind allowed)

/-- The program turns the handles `pre` into handles of `post`. -/
def Owns (pre : Ledger K) (p : SysProg K C Q A α) (post : α → Ledger K → Prop) : Prop :=
  ∀ l, (pre + l).Nodup → wp kind allowed p (fun a l' => ∃ m, post a m ∧ l' = m + l ∧ l'.Nodup) (pre + l)

variable {kind allowed} {pre rest : Ledger K} {p : SysProg K C Q A α} {f : α → SysProg K C Q A β}
  {post : α → Ledger K → Prop} {post' : β → Ledger K → Prop}

/-- **What a triple says of the runs.** -/
theorem Owns.run (h : Owns kind allowed pre p post) {l : Ledger K} (hl : (pre + l).Nodup) {r : Outcome K α}
    (hrun : SysRun kind allowed p (pre + l) r) : ∃ a m, r = .ended a (m + l) ∧ post a m := by
  obtain ⟨a, l', rfl, m, hm, rfl, -⟩ := (wp_iff_run kind allowed p _ _).mp (h l hl) r hrun
  exact ⟨a, m, rfl, hm⟩

namespace Owns

theorem pure {a : α} (h : post a pre) : Owns kind allowed pre (Pure.pure a : SysProg K C Q A α) post :=
  fun _ hl => ⟨pre, h, rfl, hl⟩

theorem mono {post₂ : α → Ledger K → Prop} (h : Owns kind allowed pre p post) (himp : ∀ a m, post a m → post₂ a m) :
    Owns kind allowed pre p post₂ :=
  fun l hl => wp_mono (h l hl) fun a _ ⟨m, hm, heq⟩ => ⟨m, himp a m hm, heq⟩

theorem of_eq {pre₁ : Ledger K} (heq : pre = pre₁) (h : Owns kind allowed pre₁ p post) : Owns kind allowed pre p post := by
  rw [heq]
  exact h

/-- A call: the handles that it does not own are kept beside it. -/
theorem call {pre₁ : Ledger K} (hp : Owns kind allowed pre₁ p post) (hpre : pre = pre₁ + rest)
    (hf : ∀ a m, post a m → Owns kind allowed (m + rest) (f a) post') : Owns kind allowed pre (p >>= f) post' := by
  intro l hl
  rw [wp_bind]
  subst hpre
  rw [add_assoc] at hl ⊢
  refine wp_mono (hp (rest + l) hl) ?_
  rintro a _ ⟨m, hm, rfl, hnodup⟩
  rw [← add_assoc] at hnodup ⊢
  exact hf a m hm l hnodup

/-- The last call. -/
theorem tailCall {pre₁ : Ledger K} {post₂ : α → Ledger K → Prop} (hp : Owns kind allowed pre₁ p post)
    (hpre : pre = pre₁ + rest) (himp : ∀ a m, post a m → post₂ a (m + rest)) : Owns kind allowed pre p post₂ := by
  intro l hl
  subst hpre
  rw [add_assoc] at hl ⊢
  refine wp_mono (hp (rest + l) hl) ?_
  rintro a _ ⟨m, hm, rfl, hnodup⟩
  exact ⟨m + rest, himp a m hm, (add_assoc m rest l).symm, hnodup⟩

theorem bind (hp : Owns kind allowed pre p post) (hf : ∀ a m, post a m → Owns kind allowed m (f a) post') :
    Owns kind allowed pre (p >>= f) post' :=
  hp.call (add_zero pre).symm fun a m hm => by
    rw [add_zero]
    exact hf a m hm

/-- A call that gives back what it is given. -/
theorem discard {pre₁ : Ledger K} (hp : Owns kind allowed pre₁ p fun _ m => m = 0)
    (hf : ∀ a, Owns kind allowed rest (f a) post') : Owns kind allowed (pre₁ + rest) (p >>= f) post' :=
  hp.call rfl fun a m hm => by
    rw [hm, zero_add]
    exact hf a

/-- Two handles of a ledger without repetitions are different. -/
theorem nodup (h : pre.Nodup → Owns kind allowed pre p post) : Owns kind allowed pre p post :=
  fun l hl => h (Multiset.nodup_of_le (Multiset.le_add_right pre l) hl) l hl

theorem acquire (c : C) {f : Option Nat → SysProg K C Q A β} (hnone : Owns kind allowed pre (f none) post')
    (hsome : ∀ n, Owns kind allowed ({(kind c, n)} + pre) (f (some n)) post') :
    Owns kind allowed pre (Lib.acquire c >>= f) post' := by
  intro l hl
  rw [wp_bind]
  refine ⟨hnone l hl, fun n hn => ?_⟩
  have hnodup : ((kind c, n) ::ₘ (pre + l)).Nodup := Multiset.nodup_cons.mpr ⟨hn, hl⟩
  rw [← Multiset.singleton_add, ← add_assoc] at hnodup ⊢
  exact hsome n l hnodup

theorem release {h : K × Nat} {f : Unit → SysProg K C Q A β} (hpre : pre = {h} + rest)
    (hf : Owns kind allowed rest (f ()) post') : Owns kind allowed pre (Lib.release h >>= f) post' := by
  intro l hl
  rw [wp_bind]
  subst hpre
  rw [add_assoc, Multiset.singleton_add] at hl ⊢
  refine ⟨Multiset.mem_cons_self .., ?_⟩
  rw [Multiset.erase_cons_head]
  exact hf l (Multiset.nodup_cons.mp hl).2

theorem use {h : K × Nat} {f : Unit → SysProg K C Q A β} (hmem : h ∈ pre) (hf : Owns kind allowed pre (f ()) post') :
    Owns kind allowed pre (Lib.use h >>= f) post' := by
  intro l hl
  rw [wp_bind]
  exact ⟨Multiset.mem_add.mpr (Or.inl hmem), hf l hl⟩

theorem ask (q : Q) {f : A q → SysProg K C Q A β} (hf : ∀ a, allowed q a → Owns kind allowed pre (f a) post') :
    Owns kind allowed pre (Lib.ask q >>= f) post' := by
  intro l hl
  rw [wp_bind]
  exact fun a ha => hf a ha l hl

end Owns

/-! Whole functions. -/

/-- The handle that was acquired, if there is one. -/
def held (k : K) : Option Nat → Ledger K
  | none => 0
  | some n => just k n

variable (kind allowed)

/-- The function gives back every handle that it acquires, and needs none. -/
def Neutral (p : SysProg K C Q A α) : Prop := Owns kind allowed 0 p fun _ m => m = 0

/-- The function leaves the one handle that it returns. -/
def Yields (k : K) (p : SysProg K C Q A (Option Nat)) : Prop := Owns kind allowed 0 p fun r m => m = held k r

variable {kind allowed}

/-- Between the handles that are there. -/
theorem Neutral.then (hp : Neutral kind allowed p) (hf : ∀ a, Owns kind allowed pre (f a) post') :
    Owns kind allowed pre (p >>= f) post' := by
  refine Owns.call hp (zero_add pre).symm fun a m hm => ?_
  subst hm
  rw [zero_add]
  exact hf a

theorem Neutral.last (hp : Neutral kind allowed p) (h : ∀ a, post a pre) : Owns kind allowed pre p post := by
  refine Owns.tailCall hp (zero_add pre).symm fun a m hm => ?_
  subst hm
  rw [zero_add]
  exact h a

theorem Yields.then {k : K} {p : SysProg K C Q A (Option Nat)} {f : Option Nat → SysProg K C Q A β}
    (hp : Yields kind allowed k p) (hf : ∀ r, Owns kind allowed (held k r + pre) (f r) post') :
    Owns kind allowed pre (p >>= f) post' := by
  refine Owns.call hp (zero_add pre).symm fun r m hm => ?_
  subst hm
  exact hf r

theorem yields_acquire (c : C) : Yields kind allowed (kind c) (acquire c : SysProg K C Q A (Option Nat)) :=
  fun l hl => ⟨⟨0, rfl, rfl, hl⟩, fun n hn =>
    ⟨{(kind c, n)}, rfl, by rw [Multiset.singleton_add, zero_add], Multiset.nodup_cons.mpr ⟨hn, hl⟩⟩⟩

end logic

end SentinelStack.Lib
