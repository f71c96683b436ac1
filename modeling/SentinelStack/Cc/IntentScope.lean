import SentinelStack.Cc.SentinelPass
import Mathlib.Data.Fin.VecNotation

/- What `SentinelPass::run` guarantees for a module.

   - An intent does not outlive its scope: on every path from a call of
     `tca_set_intent` to a `ret` or `resume`, or out of the blocks that its block
     dominates, there is a `tca_clear` after the call (`intent_scope_cleared`).
   - The calls load words of the table that the pass builds (`loads_in_table`).
   - The result is well formed exactly when every intent is in a reachable block and
     no PHI node or landing pad is in a dominance frontier (`pass_wellFormed_iff`).
     A join with a PHI node, as `?:` around an intent leaves it, gets the clear
     before the PHI node (`clear_before_phi`). -/
namespace SentinelStack.Cc
open SentinelStack.Lib

/-! From functions to modules. -/

theorem intentCount_cons (f : IrFunction) (M : List IrFunction) :
    intentCount (f :: M) = f.intents.length + intentCount M := by
  simp [intentCount]

theorem intents_eq_nil_of_count : ∀ {M : List IrFunction}, intentCount M = 0 → ∀ f ∈ M, f.intents = []
  | f :: M, h, f', hf' => by
    rw [intentCount_cons, Nat.add_eq_zero_iff] at h
    rcases List.mem_cons.mp hf' with rfl | hmem
    · exact List.length_eq_zero_iff.mp h.1
    · exact intents_eq_nil_of_count h.2 f' hmem

theorem IrFunction.terminated (f : IrFunction) : Terminated f.code :=
  fun c => (wellFormedBlock_iff.mp (f.wellFormed c)).2

theorem injectFunctions_spec : ∀ (M : List IrFunction) {i : Nat} {os : List Transformed},
    injectFunctions i M = some os →
    os.map Transformed.source = M ∧
      ∀ o ∈ os, ∃ j, j + o.source.intents.length ≤ i + intentCount M ∧
        runIntents j o.source.intents o.source.code = some o.blocks
  | [], _, _, h => by
    cases h
    exact ⟨rfl, fun o ho => absurd ho List.not_mem_nil⟩
  | f :: M, i, os, h => by
    simp only [injectFunctions, Option.bind_eq_bind, Option.bind_eq_some_iff] at h
    obtain ⟨blocks, hblocks, rest, hrest, hos⟩ := h
    cases hos
    obtain ⟨hsources, hruns⟩ := injectFunctions_spec M hrest
    have hcount := intentCount_cons f M
    have hfirst : i + f.intents.length ≤ i + intentCount (f :: M) := by omega
    refine ⟨by rw [List.map_cons, hsources], List.forall_mem_cons.mpr ⟨⟨i, hfirst, hblocks⟩, ?_⟩⟩
    intro o ho
    obtain ⟨j, hj, hrun⟩ := hruns o ho
    exact ⟨j, by omega, hrun⟩

theorem injectFunctions_isSome_iff : ∀ (M : List IrFunction) (i : Nat),
    (∃ os, injectFunctions i M = some os) ↔ ∀ f ∈ M, ∀ s ∈ f.intents, s ∈ (flowGraph f.code).reachable
  | [], _ => ⟨fun _ _ h => absurd h List.not_mem_nil, fun _ => ⟨[], rfl⟩⟩
  | f :: M, i => by
    rw [List.forall_mem_cons, ← runIntents_isSome_iff f.intents i f.terminated,
      ← injectFunctions_isSome_iff M (i + f.intents.length)]
    simp only [injectFunctions, Option.bind_eq_bind, Option.bind_eq_some_iff]
    constructor
    · rintro ⟨os, blocks, hblocks, rest, hrest, -⟩
      exact ⟨⟨blocks, hblocks⟩, ⟨rest, hrest⟩⟩
    · rintro ⟨⟨blocks, hblocks⟩, ⟨rest, hrest⟩⟩
      exact ⟨_, blocks, hblocks, rest, hrest, rfl⟩

/-- The code of a function comes from the loop over its intents, with or without the explicit ends
    replaced. -/
def Transformed.FromRun (o : Transformed) (bound : Nat) : Prop :=
  ∃ j c, j + o.source.intents.length ≤ bound ∧ runIntents j o.source.intents o.source.code = some c ∧
    (o.blocks = c ∨ o.blocks = cleanEnds c)

theorem run_spec {M : List IrFunction} {out : PassOutput} (h : SentinelPass.run M = some out) :
    out.functions.map Transformed.source = M ∧ ∀ o ∈ out.functions, o.FromRun out.tcaGot.length := by
  unfold SentinelPass.run at h
  by_cases hzero : intentCount M = 0
  · rw [if_pos hzero] at h
    cases h
    refine ⟨(List.map_map ..).trans (List.map_id M), fun o ho => ?_⟩
    obtain ⟨f, hf, rfl⟩ := List.mem_map.mp ho
    -- no function has an intent, and the loop has nothing to do
    have hnone := intents_eq_nil_of_count hzero f hf
    refine ⟨0, f.code, ?_, ?_, Or.inl rfl⟩
    · rw [hnone]
      exact Nat.zero_le _
    · rw [hnone]
      rfl
  · rw [if_neg hzero, Option.map_eq_some_iff] at h
    obtain ⟨os, hos, rfl⟩ := h
    obtain ⟨hsources, hruns⟩ := injectFunctions_spec M hos
    refine ⟨by rw [← hsources, List.map_map]; rfl, fun o ho => ?_⟩
    obtain ⟨o', ho', rfl⟩ := List.mem_map.mp ho
    obtain ⟨j, hj, hrun⟩ := hruns o' ho'
    refine ⟨j, o'.blocks, ?_, hrun, Or.inr rfl⟩
    rw [List.length_replicate]
    rwa [Nat.zero_add] at hj

theorem run_isSome_iff (M : List IrFunction) :
    (∃ out, SentinelPass.run M = some out) ↔ ∀ f ∈ M, ∀ s ∈ f.intents, s ∈ (flowGraph f.code).reachable := by
  rw [← injectFunctions_isSome_iff M 0]
  unfold SentinelPass.run
  by_cases hzero : intentCount M = 0
  · rw [if_pos hzero]
    refine ⟨fun _ => (injectFunctions_isSome_iff M 0).mpr fun f hf s hs => ?_, fun _ => ⟨_, rfl⟩⟩
    rw [intents_eq_nil_of_count hzero f hf] at hs
    exact absurd hs List.not_mem_nil
  · simp only [if_neg hzero, Option.map_eq_some_iff]
    constructor
    · rintro ⟨_, os, hos, -⟩
      exact ⟨os, hos⟩
    · rintro ⟨os, hos⟩
      exact ⟨_, os, hos, rfl⟩

namespace Transformed

variable {o : Transformed} {bound : Nat}

theorem FromRun.refines (h : o.FromRun bound) (c : Label o.source.n) : Refines (o.source.code c) (o.blocks c) := by
  obtain ⟨j, f, -, hrun, hblocks⟩ := h
  have hloop := runIntents_refines _ hrun c
  rcases hblocks with hsame | hclean
  · rwa [hsame]
  · rw [hclean]
    exact hloop.trans (refines_cleanEnds _)

theorem FromRun.closed (h : o.FromRun bound) {s : Label o.source.n} (hs : .intentStart ∈ o.source.blocks s) :
    ScopeClosed o.source.code o.blocks s := by
  obtain ⟨j, f, -, hrun, hblocks⟩ := h
  have hloop := runIntents_closed _ o.source.terminated hrun s (IrFunction.mem_intents.mpr hs)
  rcases hblocks with hsame | hclean
  · rwa [hsame]
  · rw [hclean]
    exact hloop.refines fun c => refines_cleanEnds _

theorem FromRun.flowGraph_eq (h : o.FromRun bound) : flowGraph o.blocks = flowGraph o.source.code :=
  flowGraph_refines o.source.terminated h.refines

theorem countP_isSet_cleanEnds {n : Nat} (b : List (Code n)) :
    (b.map cleanEnd).countP Code.isSet = b.countP Code.isSet := by
  rw [List.countP_map]
  refine congrArg (b.countP ·) (funext fun x => ?_)
  cases x with
  | src y => cases y <;> rfl
  | _ => rfl

/-- Each `intent.start` has become one call of `tca_set_intent`. -/
theorem FromRun.countP_isSet (h : o.FromRun bound) (c : Label o.source.n) :
    (o.blocks c).countP Code.isSet = (o.source.code c).countP Code.isStart := by
  obtain ⟨j, f, -, hrun, hblocks⟩ := h
  have hloop := countP_isSet_runIntents _ (fun d => (o.source.count_intents d).symm) hrun c
  have hnone : (o.source.code c).countP Code.isSet = 0 := by
    rw [List.countP_eq_zero]
    intro x hx
    obtain ⟨y, -, rfl⟩ := List.mem_map.mp hx
    exact Bool.false_ne_true
  rw [hnone, Nat.zero_add, o.source.count_intents] at hloop
  rcases hblocks with hsame | hclean
  · rwa [hsame]
  · rw [hclean]
    exact (countP_isSet_cleanEnds _).trans hloop

end Transformed

/-- **Every load is from the table.** -/
theorem loads_in_table {M : List IrFunction} {out : PassOutput} (hrun : SentinelPass.run M = some out)
    {o : Transformed} (ho : o ∈ out.functions) {c : Label o.source.n} {x : Code o.source.n} (hx : x ∈ o.blocks c)
    {idx : Nat} (hidx : x.index = some idx) : idx < out.tcaGot.length := by
  obtain ⟨j, f, hbound, hloop, hblocks⟩ := (run_spec hrun).2 o ho
  have hmem : x ∈ f c := by
    rcases hblocks with hsame | hclean
    · rwa [hsame] at hx
    · rw [hclean] at hx
      obtain ⟨y, hy, rfl⟩ := List.mem_map.mp hx
      -- only an explicit end is replaced, by an instruction for no word
      cases y with
      | src z => cases z <;> cases hidx
      | _ => exact hy
  rcases mem_runIntents hidx _ hloop hmem with hsrc | hrange
  · obtain ⟨y, -, rfl⟩ := List.mem_map.mp hsrc
    cases hidx
  · omega

/-! Paths out of a scope. -/

/-- After a call of `tca_set_intent` in block `s`, with `after` behind it in the block, the intent is
    cleared on the path that visits the blocks `path` next and ends in `last`. -/
structure PathCleared (o : Transformed) (s : Label o.source.n) (after : List (Code o.source.n))
    (path : List (Label o.source.n)) (last : Label o.source.n) : Prop where
  /-- In dominated blocks, before the `ret` or `resume` at the end. -/
  leaving : (∀ c ∈ path, (flowGraph o.source.code).Dominates s c) →
    ∀ t, t.leaves = true → [.src (.term t)] <:+ o.blocks last → .clear ∈ (after ++ path.flatMap o.blocks).dropLast
  /-- Before everything else in the first block that `s` does not dominate. -/
  exit : ∀ before c rest, path = before ++ c :: rest → (∀ d ∈ before, (flowGraph o.source.code).Dominates s d) →
    ¬ (flowGraph o.source.code).Dominates s c → ∃ code, o.blocks c = .clear :: code

theorem suffix_of_append_cons {α : Type*} {w l r : List α} {x : α} (h : w <:+ l ++ x :: r) (hx : x ∉ w) : w <:+ r := by
  rcases List.suffix_or_suffix_of_suffix h (List.suffix_append l (x :: r)) with hw | hxr
  · rcases List.suffix_cons_iff.mp hw with rfl | hr
    · exact absurd (List.mem_cons_self ..) hx
    · exact hr
  · exact absurd (hxr.subset (List.mem_cons_self ..)) hx

/-- The blocks of a path end with its last block. -/
theorem suffix_flatMap_of_trail {n : Nat} {f : Blocks n} {g : FlowGraph (Label n)} {s last : Label n}
    {path : List (Label n)} {before after w : List (Code n)} {x : Code n} (hs : f s = before ++ x :: after)
    (hpath : g.Trail s path last) (hw : w <:+ f last) (hx : x ∉ w) : w <:+ after ++ path.flatMap f := by
  have hlast := hpath.getLast?_eq
  rcases List.eq_nil_or_concat path with rfl | ⟨p, c, rfl⟩
  · cases Option.some.inj hlast
    rw [List.getLast_singleton, hs] at hw
    rw [List.flatMap_nil, List.append_nil]
    exact suffix_of_append_cons hw hx
  · rw [List.concat_eq_append, ← List.cons_append, List.getLast?_concat] at hlast
    cases hlast
    rw [List.concat_eq_append, List.flatMap_append, List.flatMap_singleton, ← List.append_assoc]
    exact hw.trans (List.suffix_append _ _)

theorem pathCleared {o : Transformed} {bound : Nat} (hrun : o.FromRun bound) {s last : Label o.source.n}
    (hstart : .intentStart ∈ o.source.blocks s) {before after : List (Code o.source.n)} {i : Nat}
    (hset : o.blocks s = before ++ .setIntent i :: after) {path : List (Label o.source.n)}
    (hpath : (flowGraph o.blocks).Trail s path last) : PathCleared o s after path last := by
  have hclosed := hrun.closed hstart
  rw [hrun.flowGraph_eq] at hpath
  refine ⟨fun hdom t ht hend => ?_, fun pre c rest hsplit hdom hc => ?_⟩
  · -- the terminator of the last block is that of the source
    obtain ⟨t', ht'⟩ := o.source.terminated last
    have hsame := (getLast?_of_suffix ((hrun.refines last).suffix 0 t' ht')).symm.trans (getLast?_of_suffix hend)
    cases hsame
    have hclear := hclosed.leaving last (hpath.mem_dominated hclosed.reachable hdom) t ht ht'
    obtain ⟨l, hl⟩ := suffix_flatMap_of_trail hset hpath hclear (by simp)
    have hdrop : (l ++ [Code.clear, .src (.term t)]).dropLast = l ++ [.clear] := by
      simp [List.dropLast_append_of_ne_nil]
    rw [← hl, hdrop]
    exact List.mem_append_right l (List.mem_singleton_self _)
  · subst hsplit
    have hfront := hclosed.frontier c (FlowGraph.mem_frontier_of_exit hpath hclosed.reachable hdom hc)
    obtain ⟨code, hcode⟩ := List.head?_eq_some_iff.mp hfront
    exact ⟨code, hcode⟩

/-- **Intent scope closure.** In the code that the pass leaves, each `intent.start` of a block has become
    a call of `tca_set_intent`, and every path from such a call clears the intent: before a `ret` or `resume`
    that it reaches in dominated blocks, and at the front of the first block that is not dominated. -/
theorem intent_scope_cleared {M : List IrFunction} {out : PassOutput} (hrun : SentinelPass.run M = some out) :
    out.functions.map Transformed.source = M ∧
    ∀ o ∈ out.functions, ∀ s, .intentStart ∈ o.source.blocks s →
      (o.blocks s).countP Code.isSet = (o.source.code s).countP Code.isStart ∧
      ∀ (before : List (Code o.source.n)) i after, o.blocks s = before ++ .setIntent i :: after →
        ∀ path last, (flowGraph o.blocks).Trail s path last → PathCleared o s after path last := by
  obtain ⟨hsources, hfrom⟩ := run_spec hrun
  refine ⟨hsources, fun o ho s hs => ⟨(hfrom o ho).countP_isSet s, ?_⟩⟩
  intro before i after hset path last hpath
  exact pathCleared (hfrom o ho) hs hset hpath

/-- A diamond with an intent in its left arm. -/
def diamond : IrFunction where
  n := 3
  blocks := ![[.plain 0, .term (.jump [1, 2])], [.intentStart, .plain 1, .term (.jump [3])],
    [.plain 2, .term (.jump [3])], [.plain 3, .term .ret]]
  wellFormed := by decide

theorem intent_scope_cleared_diamond :
    ∃ out, SentinelPass.run [diamond] = some out ∧ out.functions.map Transformed.source = [diamond] ∧
      ∀ o ∈ out.functions, ∀ s, .intentStart ∈ o.source.blocks s →
        (o.blocks s).countP Code.isSet = (o.source.code s).countP Code.isStart ∧
        ∀ (before : List (Code o.source.n)) i after, o.blocks s = before ++ .setIntent i :: after →
          ∀ path last, (flowGraph o.blocks).Trail s path last → PathCleared o s after path last := by
  obtain ⟨out, hout⟩ := (run_isSome_iff [diamond]).mpr (by decide +kernel)
  exact ⟨out, hout, intent_scope_cleared hout⟩

/-! Well-formedness. -/

theorem noLeading_code {f : IrFunction} {c : Label f.n} :
    NoLeading (f.code c) ↔ ∀ x ∈ f.blocks c, x.leading = false := by
  constructor
  · exact fun h x hx => h _ (List.mem_map_of_mem hx)
  · intro h x hx
    obtain ⟨y, hy, rfl⟩ := List.mem_map.mp hx
    exact h y hy

/-- A well-formed block that begins with a clear has no PHI node and no landing pad. -/
theorem noLeading_of_clear {n : Nat} {b : List (Code n)} (h : WellFormedBlock b) (hclear : b.head? = some .clear) :
    NoLeading b := by
  obtain ⟨rest, rfl⟩ := List.head?_eq_some_iff.mp hclear
  refine List.forall_mem_cons.mpr ⟨rfl, fun y hy => ?_⟩
  have hbefore := (List.pairwise_cons.mp h.1).1 y hy
  exact Bool.eq_false_iff.mpr fun hlead => Bool.false_ne_true (hbefore.1 hlead)

theorem Transformed.FromRun.wellFormed {o : Transformed} {bound : Nat} (h : o.FromRun bound)
    (hfront : ∀ s, .intentStart ∈ o.source.blocks s → ∀ c ∈ (flowGraph o.source.code).frontier s,
      NoLeading (o.source.code c)) (c : Label o.source.n) : WellFormedBlock (o.blocks c) := by
  obtain ⟨j, f, -, hrun, hblocks⟩ := h
  have hloop := wellFormed_runIntents _ o.source.wellFormed
    (fun s hs => hfront s (IrFunction.mem_intents.mp hs)) hrun c
  rcases hblocks with hsame | hclean
  · rwa [hsame]
  · rw [hclean]
    exact wellFormed_cleanEnds hloop

/-- **When the pass keeps a module well formed.** It does exactly when every `intent.start` is in a reachable
    block whose dominance frontier has no PHI node and no landing pad. -/
theorem pass_wellFormed_iff (M : List IrFunction) :
    (∃ out, SentinelPass.run M = some out ∧ ∀ o ∈ out.functions, ∀ c, WellFormedBlock (o.blocks c)) ↔
      ∀ f ∈ M, ∀ s, .intentStart ∈ f.blocks s →
        s ∈ (flowGraph f.code).reachable ∧
        ∀ c ∈ (flowGraph f.code).frontier s, ∀ x ∈ f.blocks c, x.leading = false := by
  constructor
  · rintro ⟨out, hrun, hwf⟩ f hf s hs
    obtain ⟨hsources, hfrom⟩ := run_spec hrun
    rw [← hsources] at hf
    obtain ⟨o, ho, rfl⟩ := List.mem_map.mp hf
    have hclosed := (hfrom o ho).closed hs
    refine ⟨hclosed.reachable, fun c hc => ?_⟩
    -- the clear of the frontier is there, and nothing after it may lead the block
    have hlead := noLeading_of_clear (hwf o ho c) (hclosed.frontier c hc)
    exact noLeading_code.mp (((hfrom o ho).refines c).noLeading_iff.mp hlead)
  · intro h
    obtain ⟨out, hrun⟩ := (run_isSome_iff M).mpr fun f hf s hs => (h f hf s (IrFunction.mem_intents.mp hs)).1
    obtain ⟨hsources, hfrom⟩ := run_spec hrun
    refine ⟨out, hrun, fun o ho => (hfrom o ho).wellFormed fun s hs c hc => ?_⟩
    have hmem : o.source ∈ M := by
      rw [← hsources]
      exact List.mem_map_of_mem ho
    exact noLeading_code.mpr ((h o.source hmem s hs).2 c hc)

/-- The diamond again, with a value that depends on the arm. -/
def phiJoin : IrFunction where
  n := 3
  blocks := ![[.plain 0, .term (.jump [1, 2])], [.intentStart, .plain 1, .term (.jump [3])],
    [.plain 2, .term (.jump [3])], [.phi 0, .term .ret]]
  wellFormed := by decide

/-- The join is in the dominance frontier of the arm, and the clear goes before its PHI node. -/
theorem clear_before_phi :
    ∃ out, SentinelPass.run [phiJoin] = some out ∧ ∃ o ∈ out.functions, ∃ c,
      o.blocks c = [.clear, .src (.phi 0), .src (.term .ret)] ∧ ¬ WellFormedBlock (o.blocks c) := by
  have hrun : (SentinelPass.run [phiJoin]).any (fun out => out.functions.any fun o =>
      decide (∃ c, o.blocks c = [.clear, .src (.phi 0), .src (.term .ret)] ∧ ¬ WellFormedBlock (o.blocks c))) = true := by
    decide +kernel
  cases hout : SentinelPass.run [phiJoin] with
  | none =>
    rw [hout] at hrun
    cases hrun
  | some out =>
    rw [hout, Option.any_some] at hrun
    obtain ⟨o, ho, hc⟩ := List.any_eq_true.mp hrun
    exact ⟨out, rfl, o, ho, of_decide_eq_true hc⟩

end SentinelStack.Cc
