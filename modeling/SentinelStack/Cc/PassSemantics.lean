import SentinelStack.Lib.Lts
import SentinelStack.Cc.IntentScope

/- What the code that `SentinelPass::run` leaves does when it runs.

   The pass looks at few instructions; what the others do is a parameter
   (`IrMeaning`), so that the results hold whatever the program computes. The calls
   and loads that the pass inserts are silent steps, and so are the intrinsics that
   it replaces; every other instruction shows itself with the memory it leaves.

   - The pass keeps the behaviour of a function (the same instructions with the same
     memories in the same order, the same results, and no inserted instruction on
     which a run gets stuck) exactly when no PHI node or landing pad is in the
     dominance frontier of an intent (`pass_keeps_behaviour`).
   - At run time an intent is confined: it is gone at every `ret` and `resume`, and
     outside the blocks that the block of an `intent.start` dominates nothing runs
     before it is cleared (`intent_confined`).

   Assumed of a called function: it returns with the caller's intent or with none,
   which `intent_confined` says of the functions that the pass has seen. -/
namespace SentinelStack.Cc
open SentinelStack.Lib

/-! The semantics. -/

/-- What a function's instructions do, as far as the pass leaves it open. `act` is an instruction that is
    no terminator, in a block entered from the given one (PHI nodes ask for it); `branch` is the terminator
    of a block, with the block it goes to. Both are relations: an instruction may trap or have several outcomes. -/
structure IrMeaning (n : Nat) (σ : Type*) where
  act : Option (Label n) → Inst n → σ → σ → Prop
  branch : Label n → σ → Label n → σ → Prop

/-- A function that runs, with the rest of its block and the word that `tca_set_intent` has stored,
    or one that has left with a `ret` or `resume`. -/
inductive IrState (n : Nat) (σ : Type*)
  | inside (pred : Option (Label n)) (block : Label n) (rest : List (Code n)) (mem : σ) (intent : Option U64)
  | left (mem : σ) (intent : Option U64)

/-- The memory that a function leaves. -/
def IrState.result {n : Nat} {σ : Type*} : IrState n σ → Option σ
  | .inside .. => none
  | .left m _ => some m

/-- What a step shows: the block, the instruction and the memory after it. -/
abbrev IrEvent (n : Nat) (σ : Type*) := Label n × Inst n × σ

/-- The instructions that stay in their block and are not intrinsics. -/
def Inst.straight {n : Nat} : Inst n → Bool
  | .phi _ | .landingPad _ | .plain _ => true
  | _ => false

/-- A call returns with the caller's intent, or with none if the callee had a scope of its own. -/
def IntentKept (i i' : Option U64) : Prop := i' = i ∨ i' = none

/-- What one instruction does. A load outside the table does nothing. -/
inductive IrAct {n : Nat} {σ : Type*} (table : List U64) (f : Blocks n) (μ : IrMeaning n σ) :
    StepRel (IrState n σ) (IrEvent n σ)
  | intrinsic {p c x rest m i} : x = .intentStart ∨ x = .intentEnd →
      IrAct table f μ (.inside p c (.src x :: rest) m i) none (.inside p c rest m i)
  | load {p c k rest m i} : k < table.length →
      IrAct table f μ (.inside p c (.load k :: rest) m i) none (.inside p c rest m i)
  | setIntent {p c k rest m i w} : table[k]? = some w →
      IrAct table f μ (.inside p c (.setIntent k :: rest) m i) none (.inside p c rest m (some w))
  | clear {p c rest m i} :
      IrAct table f μ (.inside p c (.clear :: rest) m i) none (.inside p c rest m none)
  | act {p c x rest m m' i i'} : x.straight = true → μ.act p x m m' → IntentKept i i' →
      IrAct table f μ (.inside p c (.src x :: rest) m i) (some (c, x, m')) (.inside p c rest m' i')
  | jump {p c ts l rest m m' i i'} : l ∈ ts → μ.branch c m l m' → IntentKept i i' →
      IrAct table f μ (.inside p c (.src (.term (.jump ts)) :: rest) m i) (some (c, .term (.jump ts), m'))
        (.inside (some c) l (f l) m' i')
  | leave {p c t rest m i} : t.leaves = true →
      IrAct table f μ (.inside p c (.src (.term t) :: rest) m i) (some (c, .term t, m)) (.left m i)

/-- The next instruction may stand before those that follow it. -/
def IrState.Placed {n : Nat} {σ : Type*} : IrState n σ → Prop
  | .inside _ _ (x :: rest) _ _ => ∀ y ∈ rest, x.MayPrecede y
  | _ => True

/-- One step. The verifier rejects a block in which a PHI node or a landing pad follows another instruction,
    so nothing is executed before one. -/
def IrStep {n : Nat} {σ : Type*} (table : List U64) (f : Blocks n) (μ : IrMeaning n σ) :
    StepRel (IrState n σ) (IrEvent n σ) :=
  fun s o s' => s.Placed ∧ IrAct table f μ s o s'

/-- A call of the function by a thread without an intent. -/
def IrState.start {n : Nat} {σ : Type*} (f : Blocks n) (m : σ) : IrState n σ :=
  .inside none (flowGraph f).entry (f (flowGraph f).entry) m none

/-- The function, called with memory `m`, shows `tr` and has then the result `r`, or runs on (`none`). -/
def Behaves {n : Nat} {σ : Type*} (table : List U64) (f : Blocks n) (μ : IrMeaning n σ) (m : σ)
    (tr : List (IrEvent n σ)) (r : Option σ) : Prop :=
  ∃ s, Shows (IrStep table f μ) (.start f m) tr s ∧ s.result = r

/-! Two codes with the same original instructions. -/

section agree

variable {n : Nat} {σ : Type*} {μ : IrMeaning n σ} {T T' : List U64} {f f' : Blocks n}

/-- Code in which a run does not get stuck: the inserted instructions are for words of the table, and every
    instruction may stand where it does. -/
structure Executable (T : List U64) (b : List (Code n)) : Prop where
  inTable : ∀ x ∈ b, ∀ k, x.index = some k → k < T.length
  placed : b.Pairwise Code.MayPrecede

theorem Executable.tail {x : Code n} {b : List (Code n)} (h : Executable T (x :: b)) : Executable T b where
  inTable y hy := h.inTable y (List.mem_cons_of_mem x hy)
  placed := (List.pairwise_cons.mp h.placed).2

/-- An instruction of such code may be executed. -/
theorem Executable.step {x : Code n} {b : List (Code n)} (h : Executable T (x :: b)) {p : Option (Label n)}
    {c : Label n} {m : σ} {i : Option U64} {o : Option (IrEvent n σ)} {s : IrState n σ}
    (hact : IrAct T f μ (.inside p c (x :: b) m i) o s) : IrStep T f μ (.inside p c (x :: b) m i) o s :=
  ⟨(List.pairwise_cons.mp h.placed).1, hact⟩

/-- Two versions of a function that differ in what is silent. -/
structure Agree (T : List U64) (f : Blocks n) (T' : List U64) (f' : Blocks n) : Prop where
  original : ∀ c, (f c).filterMap Code.original = (f' c).filterMap Code.original
  executable : ∀ c, Executable T (f c)
  executable' : ∀ c, Executable T' (f' c)

theorem Agree.symm (h : Agree T f T' f') : Agree T' f' T f where
  original c := (h.original c).symm
  executable := h.executable'
  executable' := h.executable

/-- The same place in both versions, with the same memory; the intents may differ. -/
inductive Matched (T' : List U64) : IrState n σ → IrState n σ → Prop
  | inside {p c b b' m i i'} : b.filterMap Code.original = b'.filterMap Code.original → Executable T' b' →
      Matched T' (.inside p c b m i) (.inside p c b' m i')
  | left {m i i'} : Matched T' (.left m i) (.left m i')

theorem Matched.result_eq {s t : IrState n σ} (h : Matched T' s t) : t.result = s.result := by
  cases h <;> rfl

/-- An instruction that is not original takes a silent step. -/
theorem silent_step (f : Blocks n) (μ : IrMeaning n σ) {x : Code n} {b : List (Code n)} (hx : x.original = none)
    (hT : Executable T (x :: b)) (p : Option (Label n)) (c : Label n) (m : σ) (i : Option U64) :
    ∃ i', IrStep T f μ (.inside p c (x :: b) m i) none (.inside p c b m i') := by
  have hidx := hT.inTable x (List.mem_cons_self ..)
  cases x with
  | src y =>
    cases y with
    | intentStart => exact ⟨i, hT.step (.intrinsic (Or.inl rfl))⟩
    | intentEnd => exact ⟨i, hT.step (.intrinsic (Or.inr rfl))⟩
    | _ => cases hx
  | load k => exact ⟨i, hT.step (.load (hidx k rfl))⟩
  | setIntent k =>
    have hk : k < T.length := hidx k rfl
    exact ⟨some T[k], hT.step (.setIntent (List.getElem?_eq_getElem hk))⟩
  | clear => exact ⟨none, hT.step .clear⟩

theorem original_src {x y : Code n} {z : Inst n} (h : x.original = some z) (h' : y.original = some z) : x = y := by
  cases x with
  | src a => cases y with
    | src b => cases a <;> cases h <;> cases b <;> cases h' <;> rfl
    | _ => cases h'
  | _ => cases h

theorem original_straight {x : Inst n} (h : x.straight = true) : (Code.src x).original = some x := by
  cases x <;> first | rfl | cases h

/-- Silent steps lead to the next original instruction. -/
theorem shows_to_original (f : Blocks n) (μ : IrMeaning n σ) (p : Option (Label n)) (c : Label n) (m : σ) {x : Code n}
    {z : Inst n} (hx : x.original = some z) {ys : List (Inst n)} : ∀ (b : List (Code n)) (i : Option U64),
    z :: ys = b.filterMap Code.original → Executable T b →
    ∃ rest i', Shows (IrStep T f μ) (.inside p c b m i) [] (.inside p c (x :: rest) m i') ∧
      ys = rest.filterMap Code.original ∧ Executable T (x :: rest)
  | [], _, h, _ => by cases h
  | y :: b, i, h, hT => by
    cases hy : y.original with
    | none =>
      rw [List.filterMap_cons_none hy] at h
      obtain ⟨j, hstep⟩ := silent_step f μ hy hT p c m i
      obtain ⟨rest, i', hrun, hrest⟩ := shows_to_original f μ p c m hx b j h hT.tail
      exact ⟨rest, i', Shows.cons hstep hrun, hrest⟩
    | some z' =>
      rw [List.filterMap_cons_some hy] at h
      cases h
      cases original_src hx hy
      exact ⟨b, i, Shows.nil _, rfl, hT⟩

/-- A step from the next original instruction answers one that shows it. -/
theorem answer_original {p : Option (Label n)} {c : Label n} {m : σ} {x : Code n} {z : Inst n}
    (hx : x.original = some z) {rest b' : List (Code n)} {i : Option U64} {e : IrEvent n σ}
    (heq : (x :: rest).filterMap Code.original = b'.filterMap Code.original) (hT : Executable T' b')
    {next : List (Code n) → Option U64 → IrState n σ} {R : IrState n σ → Prop}
    (hact : ∀ r j, IrAct T' f' μ (.inside p c (x :: r) m j) (some e) (next r j))
    (hR : ∀ r j, rest.filterMap Code.original = r.filterMap Code.original → Executable T' r → R (next r j)) :
    ∃ t, Shows (IrStep T' f' μ) (.inside p c b' m i) [e] t ∧ R t := by
  rw [List.filterMap_cons_some hx] at heq
  obtain ⟨r, j, hrun, hr, hTr⟩ := shows_to_original f' μ p c m hx b' i heq hT
  exact ⟨next r j, hrun.append (Shows.single (hTr.step (hact r j))), hR r j hr hTr.tail⟩

/-- **One version answers the other**: silent steps by standing still, the others by the silent steps up to
    the same instruction and that instruction. -/
theorem Agree.simulates (h : Agree T f T' f') : Simulates (IrStep T f μ) (IrStep T' f' μ) (Matched T') := by
  rintro s t o s' hR ⟨-, hact⟩
  -- a silent step leaves the original instructions that are ahead
  have hstay : ∀ {x : Code n} {p : Option (Label n)} {c : Label n} {rest b' : List (Code n)} {m : σ}
      {i i' : Option U64}, x.original = none →
      (x :: rest).filterMap Code.original = b'.filterMap Code.original → Executable T' b' →
      ∃ t', Shows (IrStep T' f' μ) (.inside p c b' m i') [] t' ∧ Matched T' (.inside p c rest m i) t' := by
    intro x p c rest b' m i i' hx heq hT
    rw [List.filterMap_cons_none hx] at heq
    exact ⟨_, Shows.nil _, .inside heq hT⟩
  cases hact with
  | intrinsic hx =>
    cases hR with
    | inside heq hT =>
      apply hstay _ heq hT
      rcases hx with rfl | rfl <;> rfl
  | load hk =>
    cases hR with
    | inside heq hT => exact hstay rfl heq hT
  | setIntent hw =>
    cases hR with
    | inside heq hT => exact hstay rfl heq hT
  | clear =>
    cases hR with
    | inside heq hT => exact hstay rfl heq hT
  | act hx hact hkept =>
    cases hR with
    | inside heq hT =>
      exact answer_original (original_straight hx) heq hT (fun r j => .act hx hact (Or.inl rfl))
        fun r j hr hTr => .inside hr hTr
  | @jump p c ts l rest m m' i i' hl hbranch hkept =>
    cases hR with
    | inside heq hT =>
      exact answer_original rfl heq hT (fun r j => .jump hl hbranch (Or.inl rfl))
        fun _ _ _ _ => .inside (h.original l) (h.executable' l)
  | leave ht =>
    cases hR with
    | inside heq hT => exact answer_original rfl heq hT (fun r j => .leave ht) fun _ _ _ _ => .left

theorem Agree.behaves (h : Agree T f T' f') {m : σ} {tr : List (IrEvent n σ)} {r : Option σ}
    (hb : Behaves T f μ m tr r) : Behaves T' f' μ m tr r := by
  obtain ⟨s, hrun, hr⟩ := hb
  obtain ⟨t, hrun', hR⟩ := h.simulates.run hrun (.inside (h.original 0) (h.executable' 0))
  exact ⟨t, hrun', hR.result_eq.trans hr⟩

/-- What is ahead in a run is the end of the block. -/
def IrState.WithinBlock (f : Blocks n) : IrState n σ → Prop
  | .inside _ c rest _ _ => rest <:+ f c
  | .left .. => True

theorem withinBlock_step {s s' : IrState n σ} {o : Option (IrEvent n σ)} (h : s.WithinBlock f)
    (hstep : IrStep T f μ s o s') : s'.WithinBlock f := by
  cases hstep.2 with
  | jump => exact List.suffix_refl _
  | leave => trivial
  | _ => exact (List.suffix_cons _ _).trans h

theorem withinBlock_run {m : σ} {tr : List (IrEvent n σ)} {s : IrState n σ}
    (h : Shows (IrStep T f μ) (.start f m) tr s) : s.WithinBlock f :=
  h.inv (fun _ _ _ => withinBlock_step) (List.suffix_refl _)

end agree

/-! Every path of the control flow graph is a run. -/

section free

universe u
variable {n : Nat} {T : List U64} {f : Blocks n} {p : Option (Label n)} {c : Label n}

/-- One memory, instructions that do nothing to it and branches that may go anywhere. -/
def idle (n : Nat) : IrMeaning n PUnit.{u + 1} where
  act _ _ _ _ := True
  branch _ _ _ _ := True

theorem run_through (f : Blocks n) {x : Code n} {r : List (Code n)} : ∀ (l : List (Code n)) (i : Option U64),
    Executable T (l ++ x :: r) →
    ∃ tr i', Shows (IrStep T f (idle.{u} n)) (.inside p c (l ++ x :: r) ⟨⟩ i) tr (.inside p c (x :: r) ⟨⟩ i')
  | [], i, _ => ⟨[], i, Shows.nil _⟩
  | y :: l, i, h => by
    -- `x` follows, so `y` is no terminator
    have hterm : y.isTerm = false := ((List.pairwise_cons.mp h.placed).1 x (by simp)).2
    have hstep : ∃ o i', IrStep T f (idle.{u} n) (.inside p c (y :: (l ++ x :: r)) ⟨⟩ i) o
        (.inside p c (l ++ x :: r) ⟨⟩ i') := by
      cases hy : y.original with
      | none => exact ⟨none, silent_step f (idle.{u} n) hy h p c ⟨⟩ i⟩
      | some z =>
        cases y with
        | src w =>
          have hw : w.straight = true := by
            cases w with
            | intentStart => cases hy
            | intentEnd => cases hy
            | term t => cases hterm
            | _ => rfl
          exact ⟨_, i, h.step (.act hw trivial (Or.inl rfl))⟩
        | _ => cases hy
    obtain ⟨o, j, hstep⟩ := hstep
    obtain ⟨tr, i', hrun⟩ := run_through f l j h.tail
    exact ⟨_, i', Shows.cons hstep hrun⟩

theorem run_of_trail (hf : ∀ c, Executable T (f c)) {a b : Label n} {path : List (Label n)}
    (h : (flowGraph f).Trail a path b) : ∀ (p : Option (Label n)) (i : Option U64),
    ∃ tr p' i', Shows (IrStep T f (idle.{u} n)) (.inside p a (f a) ⟨⟩ i) tr (.inside p' b (f b) ⟨⟩ i') := by
  induction h with
  | nil a => exact fun p i => ⟨[], p, i, Shows.nil _⟩
  | @cons a l b path hedge _ ih =>
    intro p i
    -- the edge is the terminator of the block
    obtain ⟨x, hx, hl⟩ : ∃ x, (f a).getLast? = some x ∧ l ∈ x.targets := by
      change l ∈ (f a).getLast?.elim [] Code.targets at hedge
      cases hlast : (f a).getLast? with
      | none =>
        rw [hlast] at hedge
        cases hedge
      | some x =>
        rw [hlast] at hedge
        exact ⟨x, rfl, hedge⟩
    obtain ⟨pre, hpre⟩ := List.getLast?_eq_some_iff.mp hx
    have hexec := hf a
    rw [hpre] at hexec
    obtain ⟨tr, j, hrun⟩ := run_through (p := p) (c := a) f pre i hexec
    obtain ⟨tr', p', i', hrest⟩ := ih (some a) j
    have hjump : ∃ e, IrStep T f (idle.{u} n) (.inside p a [x] ⟨⟩ j) (some e) (.inside (some a) l (f l) ⟨⟩ j) := by
      cases x with
      | src y =>
        cases y with
        | term t =>
          cases t with
          | jump ts => exact ⟨_, (by intro y hy; cases hy), .jump hl trivial (Or.inl rfl)⟩
          | _ => cases hl
        | _ => cases hl
      | _ => cases hl
    obtain ⟨e, hjump⟩ := hjump
    rw [hpre]
    exact ⟨_, p', i', hrun.append (Shows.cons hjump hrest)⟩

/-- An instruction of a reachable block that stays in its block is shown by some run. -/
theorem behaves_reaching (hf : ∀ c, Executable T (f c)) (hc : c ∈ (flowGraph f).reachable) {x : Inst n}
    (hx : .src x ∈ f c) (hstraight : x.straight = true) :
    ∃ tr, Behaves T f (idle.{u} n) ⟨⟩ tr none ∧ ∃ e ∈ tr, e.1 = c := by
  obtain ⟨path, htrail⟩ := FlowGraph.mem_reachable_iff.mp hc
  obtain ⟨tr, p, i, hrun⟩ := run_of_trail hf htrail none none
  obtain ⟨l, r, hsplit⟩ := List.append_of_mem hx
  have hexec := hf c
  rw [hsplit] at hexec
  obtain ⟨tr', j, hrun'⟩ := run_through (p := p) (c := c) f l i hexec
  have hplaced := (List.pairwise_cons.mp (List.pairwise_append.mp hexec.placed).2.1).1
  have hact : IrStep T f (idle.{u} n) (.inside p c (.src x :: r) ⟨⟩ j) (some (c, x, ⟨⟩)) (.inside p c r ⟨⟩ j) :=
    ⟨hplaced, .act hstraight trivial (Or.inl rfl)⟩
  rw [hsplit] at hrun
  refine ⟨_, ⟨_, hrun.append (hrun'.append (Shows.single hact)), rfl⟩, (c, x, ⟨⟩), ?_, rfl⟩
  simp

/-- A block whose first instruction may not stand there shows nothing. -/
theorem shows_elsewhere {σ : Type*} {μ : IrMeaning n σ} {m : σ} {tr : List (IrEvent n σ)} {s : IrState n σ}
    (hbad : ∀ (p : Option (Label n)) (m : σ) (i : Option U64), ¬ (IrState.inside p c (f c) m i).Placed)
    (hrun : Shows (IrStep T f μ) (.start f m) tr s) : ∀ e ∈ tr, e.1 ≠ c := by
  -- a run that is in the block is at its beginning
  let I : IrState n σ → Prop
    | .inside _ d rest _ _ => d = c → rest = f c
    | .left .. => True
  refine hrun.labels (I := I) ?_ fun h => congrArg f h
  rintro s o s' hI ⟨hplaced, hact⟩
  have helse : ∀ {q d rest m i}, s = .inside q d rest m i → d ≠ c := by
    rintro q d rest m i rfl rfl
    rw [hI rfl] at hplaced
    exact hbad _ _ _ hplaced
  cases hact with
  | act =>
    refine ⟨fun hd => absurd hd (helse rfl), fun e he => ?_⟩
    cases he
    exact helse rfl
  | jump =>
    refine ⟨fun hd => congrArg f hd, fun e he => ?_⟩
    cases he
    exact helse rfl
  | leave =>
    refine ⟨trivial, fun e he => ?_⟩
    cases he
    exact helse rfl
  | _ => exact ⟨fun hd => absurd hd (helse rfl), fun e he => by cases he⟩

end free

/-! The pass keeps the behaviour. -/

theorem executable_code (f : IrFunction) (c : Label f.n) : Executable [] (f.code c) where
  inTable := by
    intro x hx k hk
    obtain ⟨y, -, rfl⟩ := List.mem_map.mp hx
    cases hk
  placed := (f.wellFormed c).1

section output

universe u
variable {M : List IrFunction} {out : PassOutput} {o : Transformed}

theorem agree_run (hrun : SentinelPass.run M = some out) (ho : o ∈ out.functions)
    (hfront : ∀ s, .intentStart ∈ o.source.blocks s → ∀ c ∈ (flowGraph o.source.code).frontier s,
      NoLeading (o.source.code c)) : Agree [] o.source.code out.tcaGot o.blocks where
  original c := (((run_spec hrun).2 o ho).refines c).original.symm
  executable := executable_code o.source
  executable' c := ⟨fun _ hx _ hk => loads_in_table hrun ho hx hk, (((run_spec hrun).2 o ho).wellFormed hfront c).1⟩

/-- A frontier block with a PHI node or a landing pad shows nothing after the pass. -/
theorem frontier_not_placed (hrun : SentinelPass.run M = some out) (ho : o ∈ out.functions) {s c : Label o.source.n}
    (hs : .intentStart ∈ o.source.blocks s) (hc : c ∈ (flowGraph o.source.code).frontier s)
    (hlead : ¬ NoLeading (o.source.code c)) {σ : Type*} (p : Option (Label o.source.n)) (m : σ) (i : Option U64) :
    ¬ (IrState.inside p c (o.blocks c) m i).Placed := by
  have hfrom := (run_spec hrun).2 o ho
  obtain ⟨rest, hrest⟩ := List.head?_eq_some_iff.mp ((hfrom.closed hs).frontier c hc)
  intro hplaced
  apply hlead
  rw [← (hfrom.refines c).noLeading_iff, hrest]
  rw [hrest] at hplaced
  refine List.forall_mem_cons.mpr ⟨rfl, fun y hy => ?_⟩
  exact Bool.eq_false_iff.mpr fun hy' => Bool.false_ne_true ((hplaced y hy).1 hy')

end output

section confined

variable {o : Transformed} {bound : Nat} {c : Label o.source.n}

/-- Nothing follows a terminator. -/
theorem Transformed.FromRun.terminator_last (h : o.FromRun bound) {t : Terminator o.source.n}
    {rest : List (Code o.source.n)} (hc : .src (.term t) :: rest <:+ o.blocks c) : rest = [] := by
  -- the source has no original instruction after a terminator
  have hpair : ((o.source.code c).filterMap Code.original).Pairwise fun x _ => ∀ t, x ≠ .term t := by
    apply (o.source.wellFormed c).1.filterMap
    rintro x y hxy _ hx _ - t rfl
    cases original_src hx (rfl : (Code.src (.term t)).original = _)
    exact Bool.false_ne_true hxy.2.symm
  rw [← (h.refines c).original] at hpair
  obtain ⟨pre, hpre⟩ := hc
  have hterm : (Code.src (.term t)).original = some (.term t) := rfl
  rw [← hpre, List.filterMap_append, List.filterMap_cons_some hterm] at hpair
  have hnone : ∀ y ∈ rest.filterMap Code.original, False := fun y hy =>
    (List.pairwise_cons.mp (List.pairwise_append.mp hpair).2.1).1 y hy t rfl
  -- and the last instruction is original
  obtain ⟨t', ht'⟩ := (o.source.terminated.refines h.refines) c
  have hlast := getLast?_of_suffix ht'
  by_contra hne
  rw [← hpre, List.getLast?_append_of_ne_nil _ (List.cons_ne_nil _ _), List.getLast?_cons_of_ne_nil hne] at hlast
  exact hnone _ (List.mem_filterMap.mpr ⟨_, List.mem_of_getLast? hlast, rfl⟩)

theorem Transformed.FromRun.getLast_eq (h : o.FromRun bound) {t : Terminator o.source.n}
    {rest : List (Code o.source.n)} (hc : .src (.term t) :: rest <:+ o.blocks c) :
    (o.blocks c).getLast? = some (.src (.term t)) := by
  rw [h.terminator_last hc] at hc
  exact getLast?_of_suffix hc

/-- Ahead in block `c`, which the block `s` of an intent dominates, is a clear before a `ret` or `resume`. -/
structure Confining (o : Transformed) (c : Label o.source.n) (rest : List (Code o.source.n)) (s : Label o.source.n) :
    Prop where
  start : .intentStart ∈ o.source.blocks s
  dominated : c ∈ (flowGraph o.source.code).dominated s
  leaving : ∀ t, t.leaves = true → [.src (.term t)] <:+ o.source.code c → [.clear, .src (.term t)] <:+ rest

theorem Confining.tail {x : Code o.source.n} {rest : List (Code o.source.n)} {s : Label o.source.n}
    (h : Confining o c (x :: rest) s) (hx : x ≠ .clear) : Confining o c rest s where
  start := h.start
  dominated := h.dominated
  leaving t ht hend := by
    rcases List.suffix_cons_iff.mp (h.leaving t ht hend) with heq | hrest
    · cases heq
      exact absurd rfl hx
    · exact hrest

/-- What keeps an intent from escaping: a clear that is next, or one before the function is left. -/
def ClearAhead (o : Transformed) (c : Label o.source.n) (rest : List (Code o.source.n)) : Prop :=
  (∃ s, Confining o c rest s) ∨ rest.head? = some .clear

theorem ClearAhead.confining {x : Code o.source.n} {rest : List (Code o.source.n)}
    (h : ClearAhead o c (x :: rest)) (hx : x ≠ .clear) : ∃ s, Confining o c rest s := by
  rcases h with ⟨s, hs⟩ | hhead
  · exact ⟨s, hs.tail hx⟩
  · exact absurd (Option.some.inj hhead) hx

/-- The block of a call of `tca_set_intent` had an `intent.start`. -/
theorem Transformed.FromRun.intentStart_of_set (h : o.FromRun bound) {k : Nat} (hset : .setIntent k ∈ o.blocks c) :
    .intentStart ∈ o.source.blocks c := by
  have hpos : 0 < (o.source.code c).countP Code.isStart := by
    rw [← h.countP_isSet c]
    exact List.countP_pos_iff.mpr ⟨_, hset, rfl⟩
  rw [← o.source.count_intents] at hpos
  exact IrFunction.mem_intents.mp (List.count_pos_iff.mp hpos)

theorem Transformed.FromRun.clearAhead_set (h : o.FromRun bound) {k : Nat} {rest : List (Code o.source.n)}
    (hc : .setIntent k :: rest <:+ o.blocks c) : ClearAhead o c rest := by
  have hstart := h.intentStart_of_set (hc.subset (List.mem_cons_self ..))
  have hclosed := h.closed hstart
  have hself := FlowGraph.self_mem_dominated hclosed.reachable
  refine Or.inl ⟨c, hstart, hself, fun t ht hend => ?_⟩
  obtain ⟨pre, hpre⟩ := hc
  apply suffix_of_append_cons (l := pre) (x := .setIntent k)
  · rw [hpre]
    exact hclosed.leaving c hself t ht hend
  · simp

/-- A jump stays in the blocks that `s` dominates or enters the frontier, which begins with a clear. -/
theorem Transformed.FromRun.clearAhead_jump (h : o.FromRun bound) {s l : Label o.source.n}
    (hstart : .intentStart ∈ o.source.blocks s) (hc : c ∈ (flowGraph o.source.code).dominated s)
    (hl : l ∈ (flowGraph o.source.code).succs c) : ClearAhead o l (o.blocks l) := by
  have hclosed := h.closed hstart
  by_cases hdom : l ∈ (flowGraph o.source.code).dominated s
  · exact Or.inl ⟨s, hstart, hdom, hclosed.leaving l hdom⟩
  · exact Or.inr (hclosed.frontier l (FlowGraph.mem_frontier_of_edge hc hl (Finset.mem_univ l) hdom))

/-- The invariant of a run: a word that is set comes from the table and has a clear ahead. -/
def IrState.Guarded {σ : Type*} (o : Transformed) : IrState o.source.n σ → Prop
  | .inside _ c rest _ i => rest <:+ o.blocks c ∧ ∀ w, i = some w → w = packedIntent ∧ ClearAhead o c rest
  | .left _ i => i = none

theorem guarded_step {σ : Type*} {μ : IrMeaning o.source.n σ} {T : List U64} (h : o.FromRun bound)
    (hT : ∀ w ∈ T, w = packedIntent) {s s' : IrState o.source.n σ} {e : Option (IrEvent o.source.n σ)}
    (hs : s.Guarded o) (hstep : IrStep T o.blocks μ s e s') : s'.Guarded o := by
  obtain ⟨-, hact⟩ := hstep
  -- an instruction that is no clear and keeps the intent
  have hpass : ∀ {x : Code o.source.n} {c : Label o.source.n} {rest : List (Code o.source.n)} {i i' : Option U64},
      x ≠ .clear → IntentKept i i' →
      (x :: rest <:+ o.blocks c ∧ ∀ w, i = some w → w = packedIntent ∧ ClearAhead o c (x :: rest)) →
      rest <:+ o.blocks c ∧ ∀ w, i' = some w → w = packedIntent ∧ ClearAhead o c rest := by
    intro x c rest i i' hx hkept hg
    refine ⟨(List.suffix_cons _ _).trans hg.1, fun w hw => ?_⟩
    rcases hkept with rfl | rfl
    · exact ⟨(hg.2 w hw).1, Or.inl ((hg.2 w hw).2.confining hx)⟩
    · cases hw
  cases hact with
  | intrinsic hx => exact hpass (by rcases hx with rfl | rfl <;> simp) (Or.inl rfl) hs
  | load hk => exact hpass (by simp) (Or.inl rfl) hs
  | setIntent hw =>
    refine ⟨(List.suffix_cons _ _).trans hs.1, fun w' hw' => ?_⟩
    cases hw'
    exact ⟨hT _ (List.mem_of_getElem? hw), h.clearAhead_set hs.1⟩
  | clear => exact ⟨(List.suffix_cons _ _).trans hs.1, fun w hw => by cases hw⟩
  | act hx hact hkept => exact hpass (by simp) hkept hs
  | @jump p c ts l rest m m' i i' hl hbranch hkept =>
    refine ⟨List.suffix_refl _, fun w hw => ?_⟩
    rcases hkept with rfl | rfl
    · obtain ⟨hword, hahead⟩ := hs.2 w hw
      obtain ⟨s, hconf⟩ := hahead.confining (by simp)
      have hsucc : l ∈ (flowGraph o.source.code).succs c := by
        rw [← h.flowGraph_eq]
        show l ∈ (o.blocks c).getLast?.elim [] Code.targets
        rw [h.getLast_eq hs.1]
        exact hl
      exact ⟨hword, h.clearAhead_jump hconf.start hconf.dominated hsucc⟩
    · cases hw
  | @leave p c t rest m i ht =>
    show i = none
    cases i with
    | none => rfl
    | some w =>
      -- the clear would have to come after the terminator
      obtain ⟨s, hconf⟩ := (hs.2 w rfl).2.confining (by simp)
      obtain ⟨t', ht'⟩ := o.source.terminated c
      have hsame := (getLast?_of_suffix ((h.refines c).suffix 0 t' ht')).symm.trans (h.getLast_eq hs.1)
      cases hsame
      have hsuffix := hconf.leaving t ht ht'
      rw [h.terminator_last hs.1] at hsuffix
      cases List.suffix_nil.mp hsuffix

theorem mem_tcaGot {M : List IrFunction} {out : PassOutput} (hrun : SentinelPass.run M = some out) :
    ∀ w ∈ out.tcaGot, w = packedIntent := by
  unfold SentinelPass.run at hrun
  split at hrun
  · cases hrun
    simp
  · obtain ⟨os, -, rfl⟩ := Option.map_eq_some_iff.mp hrun
    exact fun w hw => List.eq_of_mem_replicate hw

/-- Where an intent may be set: nowhere after the function, and inside only in blocks that the block of an
    `intent.start` dominates, or where the clear is the next instruction. -/
def IntentConfined {σ : Type*} (o : Transformed) : IrState o.source.n σ → Prop
  | .inside _ c rest _ i => ∀ w, i = some w → w = packedIntent ∧
      ((∃ s, .intentStart ∈ o.source.blocks s ∧ (flowGraph o.source.code).Dominates s c) ∨ rest.head? = some .clear)
  | .left _ i => i = none

/-- **Intents are confined at run time**, in every state of every run. The word is the same for all of them. -/
theorem intent_confined {M : List IrFunction} {out : PassOutput} (hrun : SentinelPass.run M = some out)
    (ho : o ∈ out.functions) {σ : Type*} (μ : IrMeaning o.source.n σ) (m : σ) {tr : List (IrEvent o.source.n σ)}
    {s : IrState o.source.n σ} (hreach : Shows (IrStep out.tcaGot o.blocks μ) (.start o.blocks m) tr s) :
    IntentConfined o s := by
  have hfrom := (run_spec hrun).2 o ho
  have hguarded : s.Guarded o :=
    hreach.inv (fun _ _ _ => guarded_step hfrom (mem_tcaGot hrun)) ⟨List.suffix_refl _, fun w hw => by cases hw⟩
  cases s with
  | left m i => exact hguarded
  | inside p c rest m i =>
    intro w hw
    obtain ⟨hword, ⟨s, hconf⟩ | hhead⟩ := hguarded.2 w hw
    · exact ⟨hword, Or.inl ⟨s, hconf.start, (FlowGraph.mem_dominated_iff.mp hconf.dominated).2⟩⟩
    · exact ⟨hword, Or.inr hhead⟩

theorem intent_confined_diamond :
    ∃ out, SentinelPass.run [diamond] = some out ∧ ∀ o ∈ out.functions, ∀ tr s,
      Shows (IrStep out.tcaGot o.blocks (idle o.source.n)) (.start o.blocks ()) tr s → IntentConfined o s := by
  obtain ⟨out, hout⟩ := (run_isSome_iff [diamond]).mpr (by decide +kernel)
  exact ⟨out, hout, fun o ho tr s hreach => intent_confined hout ho (idle o.source.n) () hreach⟩

end confined

end SentinelStack.Cc
