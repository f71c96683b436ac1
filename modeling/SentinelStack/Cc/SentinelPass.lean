import SentinelStack.Lib.CTypes
import SentinelStack.Lib.Dominance
import Mathlib.Data.Fintype.Basic
import Mathlib.Data.List.FinRange
import Mathlib.Algebra.BigOperators.Group.List.Basic

/- The compiler pass: intent scopes in LLVM IR (`SentinelPass.cpp`).

   `SentinelPass::run` collects the `llvm.telos.intent.start` calls of a module and
   replaces each by a load from `.tca_got` and a call of `tca_set_intent`. It clears
   the intent again at the exits of the scope: at the front of each block in the
   dominance frontier of the call's block, and before each `ret` or `resume` of the
   blocks that it dominates. Explicit `llvm.telos.intent.end` calls become clears.

   What the edits keep is one relation on blocks, `Refines`: original instructions in
   their order, clears that stand at the front, and the terminator with the clears
   before it. `runIntents_closed` derives from it, by induction over the intents, that
   no later intent undoes the exits of an earlier one. -/
namespace SentinelStack.Cc
open SentinelStack.Lib

/-! The IR, as far as the pass looks at it. -/

/-- A basic block of a function with `n` blocks besides its entry, which is block 0. -/
abbrev Label (n : Nat) := Fin (n + 1)

/-- `jump` is every other terminator, with the blocks that it may go to: branches, `switch`,
    `invoke`, and `unreachable` with none. -/
inductive Terminator (n : Nat)
  | ret
  | resume
  | jump (targets : List (Label n))
  deriving DecidableEq

/-- `isa<ReturnInst>(Term) || isa<ResumeInst>(Term)`. -/
def Terminator.leaves {n : Nat} : Terminator n → Bool
  | .ret | .resume => true
  | .jump _ => false

/-- An instruction. `intentStart` and `intentEnd` are the calls of the two intrinsics;
    the number tells the other instructions of a kind apart. -/
inductive Inst (n : Nat)
  | phi (id : Nat)
  | landingPad (id : Nat)
  | intentStart
  | intentEnd
  | plain (id : Nat)
  | term (t : Terminator n)
  deriving DecidableEq

/-- The instructions that must lead their block. -/
def Inst.leading {n : Nat} : Inst n → Bool
  | .phi _ | .landingPad _ => true
  | _ => false

/-- An instruction while the pass runs: one of the source, or one that it inserted.
    The element pointer and the address space cast are of constants, so that the
    builder folds them into the operands of `load` and `setIntent`. -/
inductive Code (n : Nat)
  | src (x : Inst n)
  | load (idx : Nat)
  | setIntent (idx : Nat)
  | clear
  deriving DecidableEq

namespace Code

variable {n : Nat}

def isPhi : Code n → Bool
  | .src (.phi _) => true
  | _ => false

def leading : Code n → Bool
  | .src x => x.leading
  | _ => false

def isTerm : Code n → Bool
  | .src (.term _) => true
  | _ => false

def isStart : Code n → Bool
  | .src .intentStart => true
  | _ => false

def isSet : Code n → Bool
  | .setIntent _ => true
  | _ => false

def targets : Code n → List (Label n)
  | .src (.term (.jump ts)) => ts
  | _ => []

def leaves : Code n → Bool
  | .src (.term t) => t.leaves
  | _ => false

/-- The word of `.tca_got` that an inserted instruction is for. -/
def index : Code n → Option Nat
  | .load i | .setIntent i => some i
  | _ => none

/-- The instruction of the source, the intrinsics apart. -/
def original : Code n → Option (Inst n)
  | .src .intentStart | .src .intentEnd => none
  | .src x => some x
  | _ => none

/-- What may stand before what: PHI nodes before everything, a landing pad after PHI
    nodes only, and nothing after a terminator. -/
def MayPrecede (x y : Code n) : Prop := (y.leading = true → x.isPhi = true) ∧ x.isTerm = false

instance (x y : Code n) : Decidable (x.MayPrecede y) := inferInstanceAs (Decidable (_ ∧ _))

end Code

/-- The verifier's rules for one block: PHI nodes come first, a landing pad is the first
    instruction that is not one, and the only terminator is the last instruction. -/
def WellFormedBlock {n : Nat} (b : List (Code n)) : Prop :=
  b.Pairwise Code.MayPrecede ∧ b.getLast?.any Code.isTerm = true

instance {n : Nat} (b : List (Code n)) : Decidable (WellFormedBlock b) := inferInstanceAs (Decidable (_ ∧ _))

abbrev Blocks (n : Nat) := Label n → List (Code n)

/-- A function definition that the verifier accepts. -/
structure IrFunction where
  n : Nat
  blocks : Label n → List (Inst n)
  wellFormed : ∀ b, WellFormedBlock ((blocks b).map Code.src)

def IrFunction.code (f : IrFunction) : Blocks f.n := fun b => (f.blocks b).map Code.src

/-- The control flow graph. -/
def flowGraph {n : Nat} (f : Blocks n) : FlowGraph (Label n) where
  entry := 0
  succs b := (f b).getLast?.elim [] Code.targets
  nodes := Finset.univ
  entry_mem := Finset.mem_univ _
  succs_mem _ _ _ _ := Finset.mem_univ _

/-! The pass. -/

section pass
variable {n : Nat}

/-- Insert the load and the call of `tca_set_intent` before the first `intent.start`. -/
def insertSet (i : Nat) : List (Code n) → List (Code n)
  | [] => []
  | x :: b => if x.isStart then .load i :: .setIntent i :: x :: b else x :: insertSet i b

def clearTerm (b : List (Code n)) : List (Code n) := b.dropLast ++ .clear :: b.getLast?.toList

/-- Insert `tca_clear` before the exit points of a block: its front, its terminator, or both. -/
def insertClears (front term : Bool) (b : List (Code n)) : List (Code n) :=
  -- `ExitPoints` is a set: the only instruction of a block is in it once
  let b' := if term && !(front && b.length == 1) then clearTerm b else b
  if front then .clear :: b' else b'

/-- One turn of the loop over `Intents`, for an intent whose call is in block `s`. The calls
    before it in the block are erased already, so that `StartInst` is the first that is left. -/
def injectIntent (i : Nat) (s : Label n) (f : Blocks n) : Blocks n := fun c =>
  let injected := if c = s then insertSet i (f c) else f c
  let cleared := insertClears (decide (c ∈ (flowGraph f).frontier s))
    (decide (c ∈ (flowGraph f).dominated s) && injected.getLast?.any Code.leaves) injected
  if c = s then cleared.eraseP Code.isStart else cleared

/-- The loop. An unreachable block has no node in the dominator tree; the traversal then
    starts from a null node (`none`). -/
def runIntents : Nat → List (Label n) → Blocks n → Option (Blocks n)
  | _, [], f => some f
  | i, s :: ss, f =>
    if s ∈ (flowGraph f).reachable then runIntents (i + 1) ss (injectIntent i s f) else none

/-- An explicit end becomes a clear. -/
def cleanEnd : Code n → Code n
  | .src .intentEnd => .clear
  | x => x

def cleanEnds (f : Blocks n) : Blocks n := fun c => (f c).map cleanEnd

end pass

/-- The blocks of the `intent.start` calls of a function, in program order. -/
def IrFunction.intents (f : IrFunction) : List (Label f.n) :=
  (List.finRange (f.n + 1)).flatMap fun b => List.replicate ((f.code b).countP Code.isStart) b

/-- A function and the code that the pass leaves for it. -/
structure Transformed where
  source : IrFunction
  blocks : Blocks source.n

/-- The intents of a module are numbered across its functions. -/
def injectFunctions : Nat → List IrFunction → Option (List Transformed)
  | _, [] => some []
  | i, f :: fs => do
    let blocks ← runIntents i f.intents f.code
    let rest ← injectFunctions (i + f.intents.length) fs
    return ⟨f, blocks⟩ :: rest

/-- The hash in the upper half of a word of `.tca_got`, the marker in the lower. -/
def packedIntent : U64 := (0x89ABCDEF#64 <<< 32) ||| 0x7CA#64

/-- A module after the pass: the table `.tca_got` and the functions. -/
structure PassOutput where
  tcaGot : List U64
  functions : List Transformed

/-- `Intents.size()`. -/
def intentCount (M : List IrFunction) : Nat := (M.map fun f => f.intents.length).sum

/-- `SentinelPass::run` on the functions that a module defines. -/
def SentinelPass.run (M : List IrFunction) : Option PassOutput :=
  if intentCount M = 0 then some ⟨[], M.map fun f => ⟨f, f.code⟩⟩
  else (injectFunctions 0 M).map fun fs =>
    ⟨List.replicate (intentCount M) packedIntent, fs.map fun o => ⟨o.source, cleanEnds o.blocks⟩⟩

/-! What the edits keep. -/

section refines
variable {n : Nat} {b b' : List (Code n)}

/-- `b'` comes from `b` by edits that keep the original instructions, a clear at the front,
    and the terminator with the clears before it. -/
structure Refines (b b' : List (Code n)) : Prop where
  original : b'.filterMap Code.original = b.filterMap Code.original
  front : b.head? = some .clear → b'.head? = some .clear
  suffix : ∀ k t, List.replicate k .clear ++ [.src (.term t)] <:+ b →
    List.replicate k .clear ++ [.src (.term t)] <:+ b'

theorem Refines.refl (b : List (Code n)) : Refines b b := ⟨rfl, id, fun _ _ => id⟩

theorem Refines.trans {b'' : List (Code n)} (h : Refines b b') (h' : Refines b' b'') : Refines b b'' :=
  ⟨h'.original.trans h.original, h'.front ∘ h.front, fun k t => h'.suffix k t ∘ h.suffix k t⟩

/-- The end of a block that the suffixes describe has no call of the intrinsics. -/
theorem noStart_suffix (k : Nat) (t : Terminator n) :
    ∀ x ∈ List.replicate k .clear ++ [Code.src (.term t)], x.isStart = false := by
  intro x hx
  rcases List.mem_append.mp hx with hx | hx
  · rw [List.eq_of_mem_replicate hx]
    rfl
  · rw [List.mem_singleton.mp hx]
    rfl

theorem Code.isStart_iff {x : Code n} : x.isStart = true ↔ x = .src .intentStart := by
  constructor
  · intro h
    cases x with
    | src y =>
      cases y with
      | intentStart => rfl
      | _ => cases h
    | _ => cases h
  · rintro rfl
    rfl

theorem insertSet_of_noStart (i : Nat) (h : ∀ x ∈ b, x.isStart = false) : insertSet i b = b := by
  induction b with
  | nil => rfl
  | cons x b ih =>
    have hx := h x (List.mem_cons_self ..)
    simp only [insertSet, hx, Bool.false_eq_true, if_false]
    rw [ih fun y hy => h y (List.mem_cons_of_mem _ hy)]

theorem insertSet_split (i : Nat) (h : .src .intentStart ∈ b) :
    ∃ l r, b = l ++ .src .intentStart :: r ∧
      insertSet i b = l ++ ([.load i, .setIntent i] ++ .src .intentStart :: r) := by
  induction b with
  | nil => exact absurd h List.not_mem_nil
  | cons x b ih =>
    by_cases hx : x.isStart = true
    · rw [insertSet, if_pos hx, Code.isStart_iff.mp hx]
      exact ⟨[], b, rfl, rfl⟩
    · have hne : .src .intentStart ≠ x := fun hxs => hx (Code.isStart_iff.mpr hxs.symm)
      obtain ⟨l, r, rfl, hsplit⟩ := ih ((List.mem_cons.mp h).resolve_left hne)
      rw [insertSet, if_neg hx, hsplit]
      exact ⟨x :: l, r, rfl, rfl⟩

/-- A block without a call is left alone. -/
theorem insertSet_of_not_mem (i : Nat) (h : .src .intentStart ∉ b) : insertSet i b = b := by
  refine insertSet_of_noStart i fun x hx => Bool.eq_false_iff.mpr fun hstart => h ?_
  rwa [← Code.isStart_iff.mp hstart]

theorem insertSet_append_of_noStart (i : Nat) {w : List (Code n)} (hw : ∀ x ∈ w, x.isStart = false) :
    ∀ l : List (Code n), ∃ l', insertSet i (l ++ w) = l' ++ w
  | [] => ⟨[], insertSet_of_noStart i hw⟩
  | x :: l => by
    obtain ⟨l', hl'⟩ := insertSet_append_of_noStart i hw l
    simp only [List.cons_append, insertSet]
    split
    · exact ⟨.load i :: .setIntent i :: x :: l, rfl⟩
    · exact ⟨x :: l', by rw [hl', List.cons_append]⟩

theorem refines_insertSet (i : Nat) (b : List (Code n)) : Refines b (insertSet i b) where
  original := by
    induction b with
    | nil => rfl
    | cons x b ih =>
      simp only [insertSet]
      split
      · rfl
      · simp only [List.filterMap_cons, ih]
  front h := by
    cases b with
    | nil => exact h
    | cons x b =>
      cases Option.some.inj h
      rfl
  suffix k t h := by
    obtain ⟨l, rfl⟩ := h
    obtain ⟨l', hl'⟩ := insertSet_append_of_noStart i (noStart_suffix k t) l
    exact ⟨l', hl'.symm⟩

theorem eraseStart_split (h : .src .intentStart ∈ b) :
    ∃ l r, b = l ++ .src .intentStart :: r ∧ b.eraseP Code.isStart = l ++ r := by
  obtain ⟨x, l, r, -, hx, hb, herase⟩ := List.exists_of_eraseP h (rfl : Code.isStart (.src .intentStart : Code n) = true)
  rw [Code.isStart_iff.mp hx] at hb
  exact ⟨l, r, hb, herase⟩

theorem eraseStart_of_not_mem (h : .src .intentStart ∉ b) : b.eraseP Code.isStart = b := by
  refine List.eraseP_of_forall_not fun x hx hstart => h ?_
  rwa [← Code.isStart_iff.mp hstart]

theorem refines_eraseStart (b : List (Code n)) : Refines b (b.eraseP Code.isStart) where
  original := by
    by_cases hstart : .src .intentStart ∈ b
    · obtain ⟨l, r, rfl, herase⟩ := eraseStart_split hstart
      rw [herase, List.filterMap_append, List.filterMap_append]
      rfl
    · rw [eraseStart_of_not_mem hstart]
  front h := by
    cases b with
    | nil => exact h
    | cons x b =>
      cases Option.some.inj h
      rfl
  suffix k t h := by
    obtain ⟨l, rfl⟩ := h
    have hw := List.eraseP_of_forall_not (l := List.replicate k .clear ++ [Code.src (.term t)])
      fun x hx => Bool.eq_false_iff.mp (noStart_suffix k t x hx)
    rw [List.eraseP_append]
    split
    · exact List.suffix_append _ _
    · rw [hw]
      exact List.suffix_append _ _

theorem refines_clear (b : List (Code n)) : Refines b (.clear :: b) :=
  ⟨rfl, fun _ => rfl, fun _ _ h => h.trans (List.suffix_cons _ _)⟩

theorem clearTerm_concat (l : List (Code n)) (x : Code n) : clearTerm (l ++ [x]) = l ++ [.clear, x] := by
  simp [clearTerm]

theorem refines_clearTerm (b : List (Code n)) : Refines b (clearTerm b) where
  original := by
    rcases List.eq_nil_or_concat b with rfl | ⟨l, x, rfl⟩
    · rfl
    · rw [List.concat_eq_append, clearTerm_concat, List.filterMap_append, List.filterMap_append]
      rfl
  front h := by
    rcases List.eq_nil_or_concat b with rfl | ⟨l, x, rfl⟩
    · rfl
    · rw [List.concat_eq_append] at h ⊢
      rw [clearTerm_concat]
      cases l with
      | nil => rfl
      | cons y l => exact h
  suffix k t h := by
    obtain ⟨l, rfl⟩ := h
    rw [← List.append_assoc, clearTerm_concat]
    -- the new clear stands after the others, which is as good as before them
    refine ⟨l ++ [.clear], ?_⟩
    calc l ++ [Code.clear] ++ (List.replicate k .clear ++ [.src (.term t)])
        = l ++ List.replicate (k + 1) .clear ++ [.src (.term t)] := by simp [List.replicate_succ]
      _ = l ++ List.replicate k .clear ++ [.clear, .src (.term t)] := by simp [List.replicate_succ']

/-- The clear before the terminator first, then the one at the front. -/
theorem insertClears_split (front term : Bool) (b : List (Code n)) :
    ∃ b', (b' = b ∨ b' = clearTerm b) ∧ insertClears front term b = if front then .clear :: b' else b' := by
  refine ⟨_, ?_, rfl⟩
  split
  · exact Or.inr rfl
  · exact Or.inl rfl

theorem refines_insertClears (front term : Bool) (b : List (Code n)) : Refines b (insertClears front term b) := by
  obtain ⟨b', hb', hsplit⟩ := insertClears_split front term b
  have hterm : Refines b b' := by
    rcases hb' with rfl | rfl
    · exact Refines.refl _
    · exact refines_clearTerm b
  rw [hsplit]
  split
  · exact hterm.trans (refines_clear _)
  · exact hterm

theorem refines_cleanEnds (b : List (Code n)) : Refines b (b.map cleanEnd) where
  original := by
    rw [List.filterMap_map]
    refine List.filterMap_congr fun x _ => ?_
    cases x with
    | src y => cases y <;> rfl
    | _ => rfl
  front h := by
    rw [List.head?_map, h]
    rfl
  suffix k t h := by
    have hmap := h.map cleanEnd
    rwa [List.map_append, List.map_replicate] at hmap

/-- One turn, seen from a block: edits that refine, the clears, and edits that refine. -/
theorem injectIntent_split (i : Nat) (s : Label n) (f : Blocks n) (c : Label n) :
    ∃ b, Refines (f c) b ∧
      Refines (insertClears (decide (c ∈ (flowGraph f).frontier s))
        (decide (c ∈ (flowGraph f).dominated s) && b.getLast?.any Code.leaves) b) (injectIntent i s f c) := by
  unfold injectIntent
  by_cases hc : c = s
  · refine ⟨insertSet i (f c), refines_insertSet i _, ?_⟩
    simp only [if_pos hc]
    exact refines_eraseStart _
  · refine ⟨f c, Refines.refl _, ?_⟩
    simp only [if_neg hc]
    exact Refines.refl _

theorem refines_injectIntent (i : Nat) (s : Label n) (f : Blocks n) (c : Label n) :
    Refines (f c) (injectIntent i s f c) := by
  obtain ⟨b, hb, hb'⟩ := injectIntent_split i s f c
  exact (hb.trans (refines_insertClears _ _ b)).trans hb'

end refines

/-! The exits of a scope. -/

section scope
variable {n : Nat} {f f' : Blocks n} {s : Label n}

/-- Every block ends in a terminator. -/
def Terminated (f : Blocks n) : Prop := ∀ c, ∃ t, [.src (.term t)] <:+ f c

theorem getLast?_of_suffix {b : List (Code n)} {x : Code n} (h : [x] <:+ b) : b.getLast? = some x := by
  obtain ⟨l, rfl⟩ := h
  exact List.getLast?_concat

theorem Terminated.refines (hf : Terminated f) (h : ∀ c, Refines (f c) (f' c)) : Terminated f' := by
  intro c
  obtain ⟨t, ht⟩ := hf c
  exact ⟨t, (h c).suffix 0 t ht⟩

/-- The terminators are kept, and with them the control flow graph. -/
theorem flowGraph_refines (hf : Terminated f) (h : ∀ c, Refines (f c) (f' c)) : flowGraph f' = flowGraph f := by
  have hlast : ∀ c, (f' c).getLast? = (f c).getLast? := by
    intro c
    obtain ⟨t, ht⟩ := hf c
    rw [getLast?_of_suffix ht, getLast?_of_suffix ((h c).suffix 0 t ht)]
  simp only [flowGraph, hlast]

/-- The exits of the scope opened in `s`, in `f`, are cleared in `f'`. -/
structure ScopeClosed (f f' : Blocks n) (s : Label n) : Prop where
  reachable : s ∈ (flowGraph f).reachable
  frontier : ∀ c ∈ (flowGraph f).frontier s, (f' c).head? = some .clear
  leaving : ∀ c ∈ (flowGraph f).dominated s, ∀ t, t.leaves = true → [.src (.term t)] <:+ f c →
    [.clear, .src (.term t)] <:+ f' c

theorem ScopeClosed.refines {f'' : Blocks n} (h : ScopeClosed f f' s) (h' : ∀ c, Refines (f' c) (f'' c)) :
    ScopeClosed f f'' s where
  reachable := h.reachable
  frontier c hc := (h' c).front (h.frontier c hc)
  leaving c hc t ht hend := (h' c).suffix 1 t (h.leaving c hc t ht hend)

theorem insertClears_front (term : Bool) (b : List (Code n)) : (insertClears true term b).head? = some .clear := rfl

theorem insertClears_term (front : Bool) {b : List (Code n)} {x : Code n} (h : [x] <:+ b) :
    [.clear, x] <:+ insertClears front true b := by
  obtain ⟨l, rfl⟩ := h
  unfold insertClears
  rw [clearTerm_concat]
  cases front with
  | false => exact List.suffix_append l _
  | true =>
    cases l with
    | nil => exact List.suffix_refl _
    | cons y l =>
      have hlen : ((y :: l ++ [x]).length == 1) = false := by simp
      rw [hlen]
      exact (List.suffix_append (y :: l) _).trans (List.suffix_cons _ _)

theorem injectIntent_closed (i : Nat) (hs : s ∈ (flowGraph f).reachable) : ScopeClosed f (injectIntent i s f) s where
  reachable := hs
  frontier c hc := by
    obtain ⟨b, -, hb'⟩ := injectIntent_split i s f c
    rw [decide_eq_true hc] at hb'
    exact hb'.front (insertClears_front _ b)
  leaving c hc t ht hend := by
    obtain ⟨b, hb, hb'⟩ := injectIntent_split i s f c
    have hlast : [.src (.term t)] <:+ b := hb.suffix 0 t hend
    have hleaves : b.getLast?.any Code.leaves = true := by
      rw [getLast?_of_suffix hlast]
      exact ht
    rw [decide_eq_true hc, hleaves, Bool.and_true] at hb'
    exact hb'.suffix 1 t (insertClears_term _ hlast)

/-! The loop over the intents. -/

theorem runIntents_refines : ∀ (ss : List (Label n)) {i : Nat} {f : Blocks n}, runIntents i ss f = some f' →
    ∀ c, Refines (f c) (f' c)
  | [], _, _, h, c => by
    cases h
    exact Refines.refl _
  | s :: ss, i, f, h, c => by
    rw [runIntents] at h
    split at h
    · exact (refines_injectIntent i s f c).trans (runIntents_refines ss h c)
    · cases h

/-- **Every scope of a function is closed.** An intent finds the control flow graph of the source,
    whatever the intents before it inserted, and the intents after it keep its clears. -/
theorem runIntents_closed : ∀ (ss : List (Label n)) {i : Nat} {f : Blocks n}, Terminated f →
    runIntents i ss f = some f' → ∀ s ∈ ss, ScopeClosed f f' s
  | s :: ss, i, f, hf, h, s', hs' => by
    have hstep := refines_injectIntent i s f
    have hgraph := flowGraph_refines hf hstep
    rw [runIntents] at h
    split at h
    case isFalse => cases h
    case isTrue hreach =>
      rcases List.mem_cons.mp hs' with rfl | hmem
      · exact (injectIntent_closed i hreach).refines (runIntents_refines ss h)
      · obtain ⟨hreach', hfront, hleave⟩ := runIntents_closed ss (hf.refines hstep) h s' hmem
        rw [hgraph] at hreach' hfront hleave
        exact ⟨hreach', hfront, fun c hc t ht hend => hleave c hc t ht ((hstep c).suffix 0 t hend)⟩

/-- The loop gets through exactly when every intent is in a reachable block. -/
theorem runIntents_isSome_iff : ∀ (ss : List (Label n)) (i : Nat) {f : Blocks n}, Terminated f →
    ((∃ f', runIntents i ss f = some f') ↔ ∀ s ∈ ss, s ∈ (flowGraph f).reachable)
  | [], _, f, _ => ⟨fun _ _ h => absurd h List.not_mem_nil, fun _ => ⟨f, rfl⟩⟩
  | s :: ss, i, f, hf => by
    have hstep := refines_injectIntent i s f
    have ih := runIntents_isSome_iff ss (i + 1) (hf.refines hstep)
    rw [flowGraph_refines hf hstep] at ih
    rw [runIntents, List.forall_mem_cons]
    split
    case isTrue hreach => rw [ih, and_iff_right hreach]
    case isFalse hreach => simp [hreach]

end scope

/-! Well-formed blocks. -/

section wellFormed
variable {n : Nat} {b b' : List (Code n)}

def NoLeading (b : List (Code n)) : Prop := ∀ x ∈ b, x.leading = false

theorem noLeading_iff_original : NoLeading b ↔ ∀ y ∈ b.filterMap Code.original, y.leading = false := by
  constructor
  · intro h y hy
    obtain ⟨x, hx, hxy⟩ := List.mem_filterMap.mp hy
    have hlead := h x hx
    cases x with
    | src z =>
      cases z with
      | intentStart => cases hxy
      | intentEnd => cases hxy
      | _ =>
        cases hxy
        exact hlead
    | _ => cases hxy
  · intro h x hx
    cases x with
    | src z =>
      cases z with
      | phi id => exact h _ (List.mem_filterMap.mpr ⟨_, hx, rfl⟩)
      | landingPad id => exact h _ (List.mem_filterMap.mpr ⟨_, hx, rfl⟩)
      | _ => rfl
    | _ => rfl

theorem Refines.noLeading_iff (h : Refines b b') : NoLeading b' ↔ NoLeading b := by
  rw [noLeading_iff_original, noLeading_iff_original, h.original]

theorem wellFormedBlock_iff :
    WellFormedBlock b ↔ b.Pairwise Code.MayPrecede ∧ ∃ t, [.src (.term t)] <:+ b := by
  refine and_congr_right fun _ => ?_
  rcases List.eq_nil_or_concat b with rfl | ⟨l, x, rfl⟩
  · simp
  · rw [List.concat_eq_append, List.getLast?_concat, Option.any_some]
    constructor
    · intro hx
      cases x with
      | src z =>
        cases z with
        | term t => exact ⟨t, List.suffix_append l _⟩
        | _ => cases hx
      | _ => cases hx
    · rintro ⟨t, ht⟩
      have hlast := getLast?_of_suffix ht
      rw [List.getLast?_concat] at hlast
      cases hlast
      rfl

/-- Inserted instructions may stand wherever no PHI node or landing pad follows, and something does. -/
theorem pairwise_insert {l w r : List (Code n)} (h : (l ++ r).Pairwise Code.MayPrecede) (hr : r ≠ [])
    (hlead : NoLeading r) (hw : ∀ x ∈ w, x.leading = false ∧ x.isTerm = false) :
    (l ++ (w ++ r)).Pairwise Code.MayPrecede := by
  obtain ⟨hl, hrr, hlr⟩ := List.pairwise_append.mp h
  have hafter : ∀ {x y : Code n}, x.isTerm = false → y.leading = false → x.MayPrecede y := by
    intro x y hx hy
    exact ⟨fun hy' => absurd hy' (Bool.eq_false_iff.mp hy), hx⟩
  have hww : w.Pairwise Code.MayPrecede :=
    List.pairwise_of_forall_mem_list fun x hx y hy => hafter (hw x hx).2 (hw y hy).1
  have hwr : (w ++ r).Pairwise Code.MayPrecede :=
    List.pairwise_append.mpr ⟨hww, hrr, fun x hx y hy => hafter (hw x hx).2 (hlead y hy)⟩
  refine List.pairwise_append.mpr ⟨hl, hwr, fun x hx y hy => ?_⟩
  rcases List.mem_append.mp hy with hy | hy
  · obtain ⟨z, hz⟩ := List.exists_mem_of_ne_nil r hr
    exact hafter (hlr x hx z hz).2 (hw y hy).1
  · exact hlr x hx y hy

theorem pairwise_insertSet (i : Nat) (h : b.Pairwise Code.MayPrecede) : (insertSet i b).Pairwise Code.MayPrecede := by
  by_cases hstart : .src .intentStart ∈ b
  · obtain ⟨l, r, rfl, hsplit⟩ := insertSet_split i hstart
    rw [hsplit]
    -- a call is no PHI node, so that nothing after it leads the block
    have hafter := (List.pairwise_cons.mp (List.pairwise_append.mp h).2.1).1
    have hlead : NoLeading (.src .intentStart :: r) := by
      refine List.forall_mem_cons.mpr ⟨rfl, fun y hy => ?_⟩
      exact Bool.eq_false_iff.mpr fun hlead => Bool.false_ne_true ((hafter y hy).1 hlead)
    refine pairwise_insert h (List.cons_ne_nil _ _) hlead fun x hx => ?_
    simp only [List.mem_cons, List.not_mem_nil, or_false] at hx
    rcases hx with rfl | rfl <;> exact ⟨rfl, rfl⟩
  · rwa [insertSet_of_not_mem i hstart]

theorem clear_neutral : ∀ x ∈ [(.clear : Code n)], x.leading = false ∧ x.isTerm = false := by
  intro x hx
  rw [List.mem_singleton.mp hx]
  exact ⟨rfl, rfl⟩

theorem pairwise_insertClears (front term : Bool) (h : WellFormedBlock b) (hfront : front = true → NoLeading b) :
    (insertClears front term b).Pairwise Code.MayPrecede := by
  obtain ⟨hpair, t, l, rfl⟩ := wellFormedBlock_iff.mp h
  obtain ⟨b', hb', hsplit⟩ := insertClears_split front term (l ++ [.src (.term t)])
  have hterm : b'.Pairwise Code.MayPrecede ∧ Refines (l ++ [.src (.term t)]) b' := by
    rcases hb' with rfl | rfl
    · exact ⟨hpair, Refines.refl _⟩
    · refine ⟨?_, refines_clearTerm _⟩
      have hlast : NoLeading [Code.src (.term t)] := List.forall_mem_singleton.mpr rfl
      rw [clearTerm_concat]
      exact pairwise_insert hpair (List.cons_ne_nil _ _) hlast clear_neutral
  rw [hsplit]
  split
  case isTrue hmem =>
    obtain ⟨l', rfl⟩ := hterm.2.suffix 0 t (List.suffix_append l _)
    have hne : l' ++ (List.replicate 0 .clear ++ [.src (.term t)]) ≠ [] := by simp
    exact pairwise_insert (l := []) hterm.1 hne (hterm.2.noLeading_iff.mpr (hfront hmem)) clear_neutral
  case isFalse => exact hterm.1

theorem wellFormed_injectIntent (i : Nat) (s : Label n) {f : Blocks n} {c : Label n} (h : WellFormedBlock (f c))
    (hfront : c ∈ (flowGraph f).frontier s → NoLeading (f c)) : WellFormedBlock (injectIntent i s f c) := by
  obtain ⟨hpair, t, ht⟩ := wellFormedBlock_iff.mp h
  refine wellFormedBlock_iff.mpr ⟨?_, t, (refines_injectIntent i s f c).suffix 0 t ht⟩
  unfold injectIntent
  by_cases hc : c = s
  · have hset : WellFormedBlock (insertSet i (f c)) :=
      wellFormedBlock_iff.mpr ⟨pairwise_insertSet i hpair, t, (refines_insertSet i _).suffix 0 t ht⟩
    simp only [if_pos hc]
    refine (pairwise_insertClears _ _ hset fun hmem => ?_).sublist List.eraseP_sublist
    exact (refines_insertSet i _).noLeading_iff.mpr (hfront (of_decide_eq_true hmem))
  · simp only [if_neg hc]
    exact pairwise_insertClears _ _ h fun hmem => hfront (of_decide_eq_true hmem)

theorem wellFormed_cleanEnds (h : WellFormedBlock b) : WellFormedBlock (b.map cleanEnd) := by
  obtain ⟨hpair, t, ht⟩ := wellFormedBlock_iff.mp h
  refine wellFormedBlock_iff.mpr ⟨List.pairwise_map.mpr (hpair.imp ?_), t, (refines_cleanEnds b).suffix 0 t ht⟩
  have hkind : ∀ x : Code n, (cleanEnd x).leading = x.leading ∧ (cleanEnd x).isPhi = x.isPhi ∧
      (cleanEnd x).isTerm = x.isTerm := by
    intro x
    cases x with
    | src y => cases y <;> exact ⟨rfl, rfl, rfl⟩
    | _ => exact ⟨rfl, rfl, rfl⟩
  intro x y hxy
  obtain ⟨-, hphi, hterm⟩ := hkind x
  obtain ⟨hlead, -, -⟩ := hkind y
  rwa [Code.MayPrecede, hphi, hterm, hlead]

/-- Blocks stay well formed if no clear has to go before a PHI node or a landing pad. -/
theorem wellFormed_runIntents : ∀ (ss : List (Label n)) {i : Nat} {f f' : Blocks n}, (∀ c, WellFormedBlock (f c)) →
    (∀ s ∈ ss, ∀ c ∈ (flowGraph f).frontier s, NoLeading (f c)) → runIntents i ss f = some f' →
    ∀ c, WellFormedBlock (f' c)
  | [], _, _, _, hwf, _, h, c => by
    cases h
    exact hwf c
  | s :: ss, i, f, f', hwf, hfront, h, c => by
    have hstep := refines_injectIntent i s f
    have hgraph := flowGraph_refines (fun c => (wellFormedBlock_iff.mp (hwf c)).2) hstep
    obtain ⟨hs, hss⟩ := List.forall_mem_cons.mp hfront
    rw [runIntents] at h
    split at h
    · refine wellFormed_runIntents ss (fun c => wellFormed_injectIntent i s (hwf c) (hs c)) ?_ h c
      intro s' hs' d hd
      rw [hgraph] at hd
      exact (hstep d).noLeading_iff.mpr (hss s' hs' d hd)
    · cases h

end wellFormed

/-! One call of `tca_set_intent` for each `intent.start`, and what the calls load. -/

section count
variable {n : Nat} {b : List (Code n)}

theorem countP_insertClears (front term : Bool) (b : List (Code n)) {p : Code n → Bool} (hp : p .clear = false) :
    (insertClears front term b).countP p = b.countP p := by
  have hclear : ∀ l : List (Code n), (.clear :: l).countP p = l.countP p :=
    fun l => List.countP_cons_of_neg (Bool.eq_false_iff.mp hp)
  obtain ⟨b', hb', hsplit⟩ := insertClears_split front term b
  have hterm : b'.countP p = b.countP p := by
    rcases hb' with rfl | rfl
    · rfl
    · rcases List.eq_nil_or_concat b with rfl | ⟨l, x, rfl⟩
      · exact hclear []
      · rw [List.concat_eq_append, clearTerm_concat, List.countP_append, List.countP_append, hclear]
  rw [hsplit]
  split
  · exact (hclear _).trans hterm
  · exact hterm

theorem countP_isStart_eraseP (b : List (Code n)) :
    (b.eraseP Code.isStart).countP Code.isStart = b.countP Code.isStart - 1 := by
  by_cases hstart : .src .intentStart ∈ b
  · obtain ⟨l, r, rfl, herase⟩ := eraseStart_split hstart
    rw [herase, List.countP_append, List.countP_append, List.countP_cons_of_pos rfl, ← Nat.add_assoc, Nat.add_sub_cancel]
  · have hnone : b.countP Code.isStart = 0 := List.countP_eq_zero.mpr fun x hx hx' => hstart (Code.isStart_iff.mp hx' ▸ hx)
    rw [eraseStart_of_not_mem hstart, hnone]

theorem countP_isSet_eraseP (b : List (Code n)) :
    (b.eraseP Code.isStart).countP Code.isSet = b.countP Code.isSet := by
  by_cases hstart : .src .intentStart ∈ b
  · obtain ⟨l, r, rfl, herase⟩ := eraseStart_split hstart
    rw [herase, List.countP_append, List.countP_append]
    rfl
  · rw [eraseStart_of_not_mem hstart]

theorem countP_isStart_insertSet (i : Nat) (b : List (Code n)) :
    (insertSet i b).countP Code.isStart = b.countP Code.isStart := by
  by_cases hstart : .src .intentStart ∈ b
  · obtain ⟨l, r, rfl, hsplit⟩ := insertSet_split i hstart
    have hnew : [Code.load i, .setIntent i].countP (Code.isStart (n := n)) = 0 := rfl
    simp only [hsplit, List.countP_append, hnew, Nat.zero_add]
  · rw [insertSet_of_not_mem i hstart]

theorem countP_isSet_insertSet (i : Nat) (hstart : .src .intentStart ∈ b) :
    (insertSet i b).countP Code.isSet = b.countP Code.isSet + 1 := by
  obtain ⟨l, r, rfl, hsplit⟩ := insertSet_split i hstart
  have hnew : [Code.load i, .setIntent i].countP (Code.isSet (n := n)) = 1 := rfl
  simp only [hsplit, List.countP_append, hnew]
  omega

theorem countP_isStart_injectIntent (i : Nat) (s : Label n) (f : Blocks n) (c : Label n) :
    (injectIntent i s f c).countP Code.isStart = (f c).countP Code.isStart - if c = s then 1 else 0 := by
  unfold injectIntent
  by_cases hc : c = s
  · simp only [if_pos hc]
    rw [countP_isStart_eraseP, countP_insertClears _ _ _ rfl, countP_isStart_insertSet]
  · simp only [if_neg hc]
    rw [countP_insertClears _ _ _ rfl, Nat.sub_zero]

theorem countP_isSet_injectIntent (i : Nat) {s : Label n} {f : Blocks n} (hs : .src .intentStart ∈ f s) (c : Label n) :
    (injectIntent i s f c).countP Code.isSet = (f c).countP Code.isSet + if c = s then 1 else 0 := by
  unfold injectIntent
  by_cases hc : c = s
  · simp only [if_pos hc]
    rw [countP_isSet_eraseP, countP_insertClears _ _ _ rfl, hc, countP_isSet_insertSet i hs]
  · simp only [if_neg hc]
    rw [countP_insertClears _ _ _ rfl, Nat.add_zero]

/-- The loop makes one call for each intent of a block. -/
theorem countP_isSet_runIntents : ∀ (ss : List (Label n)) {i : Nat} {f f' : Blocks n},
    (∀ c, (f c).countP Code.isStart = ss.count c) → runIntents i ss f = some f' →
    ∀ c, (f' c).countP Code.isSet = (f c).countP Code.isSet + ss.count c
  | [], _, _, _, _, h, c => by
    cases h
    rfl
  | s :: ss, i, f, f', hcount, h, c => by
    have hs : .src .intentStart ∈ f s := by
      have hpos : 0 < (f s).countP Code.isStart := by
        rw [hcount, List.count_cons_self]
        exact Nat.succ_pos _
      obtain ⟨x, hx, hstart⟩ := List.countP_pos_iff.mp hpos
      rwa [← Code.isStart_iff.mp hstart]
    have hrest : ∀ d, (injectIntent i s f d).countP Code.isStart = ss.count d := by
      intro d
      rw [countP_isStart_injectIntent, hcount, List.count_cons]
      by_cases hd : d = s
      · simp [hd]
      · simp [hd, Ne.symm hd]
    rw [runIntents] at h
    split at h
    · rw [countP_isSet_runIntents ss hrest h c, countP_isSet_injectIntent i hs, List.count_cons]
      by_cases hc : c = s
      · simp only [hc, if_true, beq_self_eq_true]
        omega
      · simp [hc, Ne.symm hc]
    · cases h

theorem IrFunction.count_intents (f : IrFunction) (c : Label f.n) :
    f.intents.count c = (f.code c).countP Code.isStart := by
  unfold intents
  have hother : ∀ d, d ≠ c → d ∈ List.finRange (f.n + 1) →
      (List.replicate ((f.code d).countP Code.isStart) d).count c = 0 := by
    intro d hd _
    exact List.count_eq_zero.mpr fun hmem => hd (List.eq_of_mem_replicate hmem).symm
  have honce : (List.finRange (f.n + 1)).count c = 1 :=
    List.count_eq_one_of_mem (List.nodup_finRange _) (List.mem_finRange c)
  rw [List.count_flatMap]
  refine (List.sum_map_eq_nsmul_single c _ hother).trans ?_
  rw [honce, one_nsmul]
  exact List.count_replicate_self

theorem IrFunction.mem_intents {f : IrFunction} {s : Label f.n} : s ∈ f.intents ↔ .intentStart ∈ f.blocks s := by
  rw [← List.count_pos_iff, f.count_intents, List.countP_pos_iff]
  constructor
  · rintro ⟨x, hx, hstart⟩
    obtain ⟨y, hy, rfl⟩ := List.mem_map.mp hx
    cases Code.isStart_iff.mp hstart
    exact hy
  · exact fun h => ⟨_, List.mem_map_of_mem h, rfl⟩

theorem mem_insertClears {front term : Bool} {x : Code n} (h : x ∈ insertClears front term b) : x ∈ b ∨ x = .clear := by
  obtain ⟨b', hb', hsplit⟩ := insertClears_split front term b
  have hterm : ∀ y ∈ b', y ∈ b ∨ y = .clear := by
    intro y hy
    rcases hb' with rfl | rfl
    · exact Or.inl hy
    · rcases List.mem_append.mp hy with hinit | hlast
      · exact Or.inl (List.mem_of_mem_dropLast hinit)
      · rcases List.mem_cons.mp hlast with rfl | hlast
        · exact Or.inr rfl
        · exact Or.inl (List.mem_of_getLast? (Option.mem_toList.mp hlast))
  rw [hsplit] at h
  split at h
  · rcases List.mem_cons.mp h with rfl | h
    · exact Or.inr rfl
    · exact hterm x h
  · exact hterm x h

theorem mem_insertSet {i : Nat} {x : Code n} (h : x ∈ insertSet i b) : x ∈ b ∨ x = .load i ∨ x = .setIntent i := by
  by_cases hstart : .src .intentStart ∈ b
  · obtain ⟨l, r, rfl, hsplit⟩ := insertSet_split i hstart
    rw [hsplit] at h
    simp only [List.mem_append, List.mem_cons, List.not_mem_nil, or_false] at h ⊢
    tauto
  · rw [insertSet_of_not_mem i hstart] at h
    exact Or.inl h

/-- One turn inserts instructions for one word. -/
theorem mem_injectIntent {i j : Nat} {s c : Label n} {f : Blocks n} {x : Code n} (h : x ∈ injectIntent i s f c)
    (hj : x.index = some j) : x ∈ f c ∨ j = i := by
  have hset : x ∈ insertSet i (f c) → x ∈ f c ∨ j = i := by
    intro hx
    rcases mem_insertSet hx with hx | rfl | rfl
    · exact Or.inl hx
    · exact Or.inr (Option.some.inj hj).symm
    · exact Or.inr (Option.some.inj hj).symm
  have hclear : x ≠ .clear := by
    rintro rfl
    cases hj
  unfold injectIntent at h
  by_cases hc : c = s
  · simp only [if_pos hc] at h
    exact hset ((mem_insertClears (List.mem_of_mem_eraseP h)).resolve_right hclear)
  · simp only [if_neg hc] at h
    exact Or.inl ((mem_insertClears h).resolve_right hclear)

theorem mem_runIntents {j : Nat} {c : Label n} {x : Code n} (hj : x.index = some j) :
    ∀ (ss : List (Label n)) {i : Nat} {f f' : Blocks n}, runIntents i ss f = some f' → x ∈ f' c →
      x ∈ f c ∨ (i ≤ j ∧ j < i + ss.length)
  | [], _, _, _, h, hx => by
    cases h
    exact Or.inl hx
  | s :: ss, i, f, f', h, hx => by
    rw [runIntents] at h
    split at h
    case isFalse => cases h
    case isTrue =>
      rw [List.length_cons]
      rcases mem_runIntents hj ss h hx with hstep | hrest
      · rcases mem_injectIntent hstep hj with hsrc | rfl
        · exact Or.inl hsrc
        · exact Or.inr (by omega)
      · exact Or.inr (by omega)

end count

end SentinelStack.Cc
