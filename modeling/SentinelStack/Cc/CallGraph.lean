import SentinelStack.Cc.ProcMaps
import SentinelStack.Lib.Bfs

/- The call-graph filter of the loader: `trace_libc_callgraph` and
   `trace_lib_callgraph` search a library's functions from the ones a program
   imports, along the relative calls and jumps in their bytes, and collect the
   `syscall` instructions of what they find.

   The inputs are what was loaded from the library's file: its sorted symbol
   table and its executable sections. A function is its index in the table.

   Main result: `callgraph_correct` — while neither array fills up, the search
   for libc seeds the functions that the imports and the essential names lead to,
   queues each function at most 24 calls from the seeds, none that is more than 25
   calls away and none twice, and returns exactly the `syscall` sites in the bytes
   of the queued functions. -/
namespace SentinelStack.Cc
open SentinelStack.Lib

def maxReachable : Nat := 4096
def callgraphDepthLimit : Nat := 24

structure LibcSym where
  addr : U64
  size : U64
  name : CStr
  deriving DecidableEq, Repr

structure ExecSection where
  vaddr : U64
  data : List U8
  size_lt : data.length < 2 ^ 64

def ExecSection.size (s : ExecSection) : U64 := BitVec.ofNat 64 s.data.length

/-! Lookups. -/

/-- The binary search of `find_sym_at_addr`. Each turn leaves out the middle, so the table's length bounds them. -/
def bsearchSym (syms : List LibcSym) (addr : U64) : (fuel : Nat) → (lo hi : Int) → Option Nat
  | 0, _, _ => none
  | fuel + 1, lo, hi =>
    if lo ≤ hi then
      let mid := (lo + hi) / 2
      match syms[mid.toNat]? with
      | none => none
      | some sym =>
        if addr < sym.addr then bsearchSym syms addr fuel lo (mid - 1)
        else if addr ≥ sym.addr + sym.size then bsearchSym syms addr fuel (mid + 1) hi
        else some mid.toNat
    else none

/-- The scan from the end of the table, down to the first symbol below the address. -/
def nearestSym (syms : List LibcSym) (addr : U64) : Nat → Option Nat
  | 0 => none
  | i + 1 =>
    match syms[i]? with
    | none => none
    | some sym =>
      if sym.addr ≤ addr ∧ addr < sym.addr + sym.size then some i
      else if sym.addr < addr then none
      else nearestSym syms addr i

def findSymAtAddr (syms : List LibcSym) (addr : U64) : Option Nat :=
  (bsearchSym syms addr syms.length 0 (syms.length - 1)).or (nearestSym syms addr syms.length)

def findSymByName (syms : List LibcSym) (name : CStr) : Option Nat := syms.findIdx? fun sym => sym.name = name

/-- `get_bytes_at`: the bytes from `addr` on, at most `len` of them; `none` outside the sections. -/
def getBytesAt (secs : List ExecSection) (addr len : U64) : Option (List U8) :=
  (secs.find? fun s => addr ≥ s.vaddr ∧ addr < s.vaddr + s.size).map fun s =>
    (s.data.drop (addr - s.vaddr).toNat).take len.toNat

/-- The bytes of a function that are there. -/
def availableBytes (secs : List ExecSection) (sym : LibcSym) : List U8 := (getBytesAt secs sym.addr sym.size).getD []

/-! The seeds. -/

def essentialSeeds : List CStr :=
  [ascii "__syscall_cancel_arch", ascii "__syscall_cancel", ascii "__internal_syscall_cancel",
    ascii "__libc_do_syscall", ascii "__GI___ioctl", ascii "__ioctl", ascii "ioctl", ascii "__isatty", ascii "isatty",
    ascii "__isatty_nostatus", ascii "__tcgetattr", ascii "tcgetattr", ascii "__GI___fstat64", ascii "__fstat64",
    ascii "__fxstat64", ascii "fstat", ascii "__fstat", ascii "__GI___lseek64", ascii "__lseek64", ascii "lseek64",
    ascii "lseek", ascii "__brk", ascii "__sbrk", ascii "__mmap", ascii "__munmap", ascii "__sigaction",
    ascii "__rt_sigaction", ascii "__sigprocmask", ascii "_exit", ascii "__GI__exit", ascii "__exit_funcs"]

/-- Seed the function of a name, if there is one. -/
def seedNamed (syms : List LibcSym) (w : WorkQueue Nat) (name : CStr) : WorkQueue Nat :=
  match findSymByName syms name with
  | none => w
  | some idx => w.enqueue maxReachable idx

/-- The name an import shares with glibc's internal variants of it. -/
def importBase (imp : CStr) : CStr := imp.dropWhile (· = 0x5F)

/-- The name looks like an internal variant: it contains the base, and starts with it or with `__`. -/
def IsVariant (base sn : CStr) : Prop := Strstr sn base ∧ (ascii "__" <+: sn ∨ base <+: sn)

instance (base sn : CStr) : Decidable (IsVariant base sn) := inferInstanceAs (Decidable (_ ∧ _))

/-- Seed the variants of an import. -/
def seedVariants (syms : List LibcSym) (w : WorkQueue Nat) (imp : CStr) : WorkQueue Nat :=
  if (importBase imp).length < 2 then w
  else
    w.enqueueAll maxReachable ((List.range syms.length).filter fun i =>
      (syms[i]?).any fun sym => IsVariant (importBase imp) sym.name)

/-- The seeds of a search: the imports, further names, and the variants of the imports. -/
def seedQueue (syms : List LibcSym) (imports names : List CStr) : WorkQueue Nat :=
  imports.foldl (seedVariants syms) (names.foldl (seedNamed syms) (imports.foldl (seedNamed syms) .empty))

/-! The search. -/

/-- The target of the relative call or jump at offset `j`. -/
def callTarget (sym : LibcSym) (bytes : List U8) (j : Nat) : U64 :=
  let disp : U32 := (leWord ((bytes.drop (j + 1)).take 4)).setWidth 32
  sym.addr + BitVec.ofNat 64 j + 5 + disp.signExtend 64

/-- The functions called from the bytes of `f`, in the order of the calls. -/
def callees (syms : List LibcSym) (secs : List ExecSection) (f : Nat) : List Nat :=
  match syms[f]? with
  | none => []
  | some sym =>
    let bytes := availableBytes secs sym
    if bytes.length < 5 then []
    else
      (List.range (bytes.length - 4)).filterMap fun j =>
        if bytes[j]? = some 0xE8 ∨ bytes[j]? = some 0xE9 then findSymAtAddr syms (callTarget sym bytes j) else none

/-- The `syscall` instructions (`0f 05`) in the bytes of `f`. -/
def syscallSites (syms : List LibcSym) (secs : List ExecSection) (f : Nat) : List U64 :=
  match syms[f]? with
  | none => []
  | some sym =>
    let bytes := availableBytes secs sym
    ((List.range (bytes.length - 1)).filter fun j => bytes[j]? = some 0x0f ∧ bytes[j + 1]? = some 0x05).map fun j =>
      sym.addr + BitVec.ofNat 64 j

/-- What a search seeded, what it queued in all, and the sites it returned. -/
structure CallgraphTrace where
  seeded : List Nat
  queue : List Nat
  sites : List U64
  deriving DecidableEq, Repr

/-- The body the two searches share. Without sections or without memory nothing is searched. -/
def traceCallgraph (allocated : Bool) (syms : List LibcSym) (secs : List ExecSection) (seeds : WorkQueue Nat)
    (maxSites : Nat) : CallgraphTrace :=
  if secs.isEmpty ∨ ¬ allocated then ⟨[], [], []⟩
  else
    let queue := (Search.loop maxReachable (callees syms secs) callgraphDepthLimit maxReachable (.start seeds)).work.queue
    ⟨seeds.queue, queue, (queue.flatMap (syscallSites syms secs)).take maxSites⟩

def traceLibcCallgraph (allocated : Bool) (syms : List LibcSym) (secs : List ExecSection) (imports : List CStr)
    (maxSites : Nat) : CallgraphTrace :=
  traceCallgraph allocated syms secs (seedQueue syms imports essentialSeeds) maxSites

/-- The search of another library seeds no further names. -/
def traceLibCallgraph (allocated : Bool) (syms : List LibcSym) (secs : List ExecSection) (imports : List CStr)
    (maxSites : Nat) : CallgraphTrace :=
  if syms.isEmpty then ⟨[], [], []⟩ else traceCallgraph allocated syms secs (seedQueue syms imports []) maxSites

/-! What the search is for. -/

/-- `f` calls or jumps to `g` by a relative instruction in its available bytes. -/
def Calls (syms : List LibcSym) (secs : List ExecSection) (f g : Nat) : Prop :=
  ∃ sym j, syms[f]? = some sym ∧ j + 4 < (availableBytes secs sym).length ∧
    ((availableBytes secs sym)[j]? = some 0xE8 ∨ (availableBytes secs sym)[j]? = some 0xE9) ∧
    findSymAtAddr syms (callTarget sym (availableBytes secs sym) j) = some g

/-- `a` is the address of a `syscall` instruction in the available bytes of `f`. -/
def IsSyscallSite (syms : List LibcSym) (secs : List ExecSection) (f : Nat) (a : U64) : Prop :=
  ∃ sym j, syms[f]? = some sym ∧ (availableBytes secs sym)[j]? = some 0x0f ∧
    (availableBytes secs sym)[j + 1]? = some 0x05 ∧ a = sym.addr + BitVec.ofNat 64 j

/-- What a search should do: queue what is near the seeds, once, and return its sites. -/
structure TraceSpec (syms : List LibcSym) (secs : List ExecSection) (t : CallgraphTrace) : Prop where
  nodup : t.queue.Nodup
  near : ∀ f, Within (Calls syms secs) (· ∈ t.seeded) 24 f → f ∈ t.queue
  notFar : ∀ f ∈ t.queue, Within (Calls syms secs) (· ∈ t.seeded) 25 f
  sites : ∀ a, a ∈ t.sites ↔ ∃ f ∈ t.queue, IsSyscallSite syms secs f a

variable {syms : List LibcSym} {secs : List ExecSection}

theorem mem_callees (f g : Nat) : g ∈ callees syms secs f ↔ Calls syms secs f g := by
  rw [callees, Calls]
  cases hf : syms[f]? with
  | none => simp
  | some sym =>
    dsimp only
    split
    next hshort =>
      simp only [List.not_mem_nil, Option.some.injEq, false_iff]
      rintro ⟨_, j, rfl, hj, -⟩
      omega
    next =>
      simp only [List.mem_filterMap, List.mem_range, Option.some.injEq]
      refine ⟨?_, ?_⟩
      · rintro ⟨j, hj, hcall⟩
        split at hcall
        next hop => exact ⟨sym, j, rfl, by omega, hop, hcall⟩
        next => cases hcall
      · rintro ⟨_, j, rfl, hj, hop, hcall⟩
        exact ⟨j, by omega, by rw [if_pos hop]; exact hcall⟩

theorem mem_syscallSites (f : Nat) (a : U64) : a ∈ syscallSites syms secs f ↔ IsSyscallSite syms secs f a := by
  rw [syscallSites, IsSyscallSite]
  cases hf : syms[f]? with
  | none => simp
  | some sym =>
    simp only [List.mem_map, List.mem_filter, List.mem_range, decide_eq_true_eq, Option.some.injEq]
    refine ⟨?_, ?_⟩
    · rintro ⟨j, ⟨-, h0f, h05⟩, rfl⟩
      exact ⟨sym, j, rfl, h0f, h05, rfl⟩
    · rintro ⟨_, j, rfl, h0f, h05, rfl⟩
      have hj := (List.getElem?_eq_some_iff.mp h05).1
      exact ⟨j, ⟨by omega, h0f, h05⟩, rfl⟩

/-! The seeds are queued one after the other. -/

/-- The variants of an import. -/
def variantsOf (syms : List LibcSym) (imp : CStr) : List Nat :=
  if (importBase imp).length < 2 then []
  else (List.range syms.length).filter fun i => (syms[i]?).any fun sym => IsVariant (importBase imp) sym.name

/-- What is seeded, in order and with what is named twice. -/
def seedTargets (syms : List LibcSym) (imports names : List CStr) : List Nat :=
  (imports ++ names).flatMap (fun name => (findSymByName syms name).toList) ++ imports.flatMap (variantsOf syms)

theorem seedNamed_eq (w : WorkQueue Nat) (name : CStr) :
    seedNamed syms w name = w.enqueueAll maxReachable (findSymByName syms name).toList := by
  rw [seedNamed]
  cases findSymByName syms name with
  | none => rfl
  | some idx => rfl

theorem seedVariants_eq (w : WorkQueue Nat) (imp : CStr) :
    seedVariants syms w imp = w.enqueueAll maxReachable (variantsOf syms imp) := by
  rw [seedVariants, variantsOf]
  split
  · rfl
  · rfl

theorem seedQueue_eq (imports names : List CStr) :
    seedQueue syms imports names = WorkQueue.empty.enqueueAll maxReachable (seedTargets syms imports names) := by
  have hnamed : seedNamed syms = fun w name => w.enqueueAll maxReachable (findSymByName syms name).toList := by
    funext w name
    exact seedNamed_eq w name
  have hvariants : seedVariants syms = fun w imp => w.enqueueAll maxReachable (variantsOf syms imp) := by
    funext w imp
    exact seedVariants_eq w imp
  rw [seedQueue, hnamed, hvariants, seedTargets, List.flatMap_append]
  simp only [WorkQueue.enqueueAll, List.foldl_append, List.foldl_flatMap]

theorem ok_seedQueue (imports names : List CStr) : (seedQueue syms imports names).Ok := by
  rw [seedQueue_eq]
  exact WorkQueue.ok_empty.enqueueAll _ _

/-- Where the queue does not fill up, all of it is seeded. -/
theorem mem_seedQueue {imports names : List CStr} (hfit : (seedQueue syms imports names).queue.length < maxReachable)
    (i : Nat) : i ∈ (seedQueue syms imports names).queue ↔ i ∈ seedTargets syms imports names := by
  rw [seedQueue_eq] at hfit ⊢
  refine ⟨?_, WorkQueue.mem_enqueueAll WorkQueue.ok_empty hfit⟩
  intro hi
  rcases WorkQueue.mem_of_mem_enqueueAll hi with hempty | htarget
  · cases hempty
  · exact htarget

/-- A search that is made seeds its targets. -/
theorem mem_seeded {allocated : Bool} {imports names : List CStr} {maxSites : Nat}
    (hfit : (traceCallgraph allocated syms secs (seedQueue syms imports names) maxSites).seeded.length < maxReachable)
    (i : Nat) : i ∈ (traceCallgraph allocated syms secs (seedQueue syms imports names) maxSites).seeded ↔
      (allocated = true ∧ secs ≠ []) ∧ i ∈ seedTargets syms imports names := by
  rw [traceCallgraph] at hfit ⊢
  split
  next hnone =>
    refine iff_of_false List.not_mem_nil fun h => ?_
    rcases hnone with hempty | hmem
    · exact h.1.2 (List.isEmpty_iff.mp hempty)
    · exact hmem h.1.1
  next hsearch =>
    rw [if_neg hsearch] at hfit
    rw [not_or, not_not, List.isEmpty_iff] at hsearch
    rw [and_iff_right ⟨hsearch.2, hsearch.1⟩]
    exact mem_seedQueue hfit i

theorem seeded_nodup {allocated : Bool} {seeds : WorkQueue Nat} (hseeds : seeds.Ok) (maxSites : Nat) :
    (traceCallgraph allocated syms secs seeds maxSites).seeded.Nodup := by
  unfold traceCallgraph
  split
  · exact List.nodup_nil
  · exact hseeds.nodup

/-- **The search body**, from any seeds. -/
theorem traceCallgraph_spec {allocated : Bool} {seeds : WorkQueue Nat} {maxSites : Nat} (hseeds : seeds.Ok)
    (hqueue : (traceCallgraph allocated syms secs seeds maxSites).queue.length < maxReachable)
    (hsites : (traceCallgraph allocated syms secs seeds maxSites).sites.length < maxSites) :
    TraceSpec syms secs (traceCallgraph allocated syms secs seeds maxSites) := by
  rw [traceCallgraph] at hqueue hsites ⊢
  split
  next =>
    -- nothing was seeded, and nothing is reached from there
    refine ⟨List.nodup_nil, fun f hf => ?_, fun f hf => absurd hf List.not_mem_nil, by simp⟩
    obtain ⟨g, hg⟩ := hf.exists_seed
    exact absurd hg List.not_mem_nil
  next hsearch =>
    simp only [if_neg hsearch] at hqueue hsites
    obtain ⟨hnodup, hnear, hnotFar⟩ := Search.search_spec (fun f g => mem_callees f g) hseeds hqueue
    refine ⟨hnodup, hnear, hnotFar, fun a => ?_⟩
    rw [List.length_take] at hsites
    dsimp only
    rw [List.take_of_length_le (by omega), List.mem_flatMap]
    simp only [mem_syscallSites]

/-- **The call-graph search is right**, as long as `q_tail` stays below `MAX_REACHABLE` and the number of
    sites below `max_sites`. -/
theorem callgraph_correct (allocated : Bool) (syms : List LibcSym) (secs : List ExecSection) (imports : List CStr)
    (maxSites : Nat) (hqueue : (traceLibcCallgraph allocated syms secs imports maxSites).queue.length < maxReachable)
    (hsites : (traceLibcCallgraph allocated syms secs imports maxSites).sites.length < maxSites) :
    (∀ f, f ∈ (traceLibcCallgraph allocated syms secs imports maxSites).seeded ↔
        (allocated = true ∧ secs ≠ []) ∧ f ∈ seedTargets syms imports essentialSeeds) ∧
      (traceLibcCallgraph allocated syms secs imports maxSites).queue.Nodup ∧
      (∀ f, Within (Calls syms secs) (· ∈ (traceLibcCallgraph allocated syms secs imports maxSites).seeded) 24 f →
        f ∈ (traceLibcCallgraph allocated syms secs imports maxSites).queue) ∧
      (∀ f ∈ (traceLibcCallgraph allocated syms secs imports maxSites).queue,
        Within (Calls syms secs) (· ∈ (traceLibcCallgraph allocated syms secs imports maxSites).seeded) 25 f) ∧
      ∀ a, a ∈ (traceLibcCallgraph allocated syms secs imports maxSites).sites ↔
        ∃ f ∈ (traceLibcCallgraph allocated syms secs imports maxSites).queue, IsSyscallSite syms secs f a := by
  have hok : (seedQueue syms imports essentialSeeds).Ok := ok_seedQueue imports essentialSeeds
  obtain ⟨hnodup, hnear, hnotFar, hexact⟩ := traceCallgraph_spec hok hqueue hsites
  -- the seeds are in the queue
  have hlen := (List.subperm_of_subset (seeded_nodup hok maxSites) fun f hf => hnear f (.seed hf)).length_le
  exact ⟨mem_seeded (Nat.lt_of_le_of_lt hlen hqueue), hnodup, hnear, hnotFar, hexact⟩

/-- `write` calls an unnamed helper, which makes the system call; `idle` is called by nobody. -/
def tinyLibc : List LibcSym := [⟨0x1000, 8, ascii "write"⟩, ⟨0x1008, 8, ascii "helper"⟩, ⟨0x1010, 8, ascii "idle"⟩]

def tinyText : List ExecSection :=
  [⟨0x1000, [0xE8, 3, 0, 0, 0, 0xC3, 0, 0] ++ [0x0f, 0x05, 0xC3, 0, 0, 0, 0, 0] ++ [0x0f, 0x05, 0xC3, 0, 0, 0, 0, 0],
    by decide⟩]

theorem callgraph_correct_tiny :
    traceLibcCallgraph true tinyLibc tinyText [ascii "write"] 16 = ⟨[0], [0, 1], [0x1008]⟩ ∧
      seedTargets tinyLibc [ascii "write"] essentialSeeds ⊆ [0] ∧
      ∀ f ∈ [0, 1], Within (Calls tinyLibc tinyText) (· ∈ [0]) 25 f := by
  have htrace : traceLibcCallgraph true tinyLibc tinyText [ascii "write"] 16 = ⟨[0], [0, 1], [0x1008]⟩ := by
    decide +kernel
  have hspec := callgraph_correct true tinyLibc tinyText [ascii "write"] 16 (by rw [htrace]; decide) (by rw [htrace]; decide)
  rw [htrace] at hspec
  exact ⟨htrace, fun f hf => (hspec.1 f).mpr ⟨⟨rfl, List.cons_ne_nil _ _⟩, hf⟩, hspec.2.2.2.1⟩

/-- The same search of another library. -/
theorem lib_callgraph_correct (allocated : Bool) (syms : List LibcSym) (secs : List ExecSection) (imports : List CStr)
    (maxSites : Nat) (hqueue : (traceLibCallgraph allocated syms secs imports maxSites).queue.length < maxReachable)
    (hsites : (traceLibCallgraph allocated syms secs imports maxSites).sites.length < maxSites) :
    TraceSpec syms secs (traceLibCallgraph allocated syms secs imports maxSites) := by
  rw [traceLibCallgraph] at hqueue hsites ⊢
  split
  next hempty =>
    have hnone : traceCallgraph false syms secs .empty maxSites = ⟨[], [], []⟩ := by simp [traceCallgraph]
    rw [if_pos hempty] at hqueue hsites
    rw [← hnone] at hqueue hsites ⊢
    exact traceCallgraph_spec WorkQueue.ok_empty hqueue hsites
  next hsome =>
    rw [if_neg hsome] at hqueue hsites
    exact traceCallgraph_spec (ok_seedQueue imports []) hqueue hsites

end SentinelStack.Cc
