import SentinelStack.Cc.Attribution
import SentinelStack.Cc.CallerCfi
import SentinelStack.Cc.MainPolicy
import SentinelStack.Cc.PolicyKeys

/- What a start of the loader lets a program do, from the files to the decision.

   The abstract policy says for a module and an offset in it which syscall
   numbers are allowed there (`SiteRule`), by what is in the files:

   1. the main binary: what the last entry of its section for the offset says;
   2. libc, with imports: the sites that the call graph reaches, each bound to the
      number of the wrapper it is found in, if that has one (`filterRule`);
   3. libc, without: any number in a cancellation trampoline, else the number of
      the last wrapper that holds the site, else any number at one of the first
      512 sites of the text (`fallbackRule`);
   4. the dynamic linker, in libc's map: any number at its first 256 sites, where
      libc has no rule of its own (`ldRule`);
   5. every other library: any number at the sites reached, or at all of them.

   The loader writes policy values into maps of 4096 entries, some with `BPF_ANY`
   and some with `BPF_NOEXIST`. No update is refused for want of room
   (`updates_hasRoom`), and the maps then hold the abstract policy
   (`registry_lookup`). `enforced_exactly` is the composition with the trie and the
   enforcer: a syscall of a tracked thread is let through exactly when the rule for
   its address allows it and the thread's limit and the stacks do.

   Assumed: the start sees one text of `/proc/PID/maps`, its map operations other
   than updates for want of room succeed, and the trie takes every block. -/
namespace SentinelStack.Cc
open SentinelStack.Lib

/-! Rules and policy values. -/

/-- The syscall numbers allowed at a site. -/
inductive SiteRule where
  | any
  | only (nr : U32)
  deriving DecidableEq, Repr

namespace SiteRule

def value : SiteRule → U64
  | any => 1
  | only nr => boundTo nr

def Allows : SiteRule → U32 → Prop
  | any, _ => True
  | only nr, syscallNr => nr = syscallNr

instance : (r : SiteRule) → (n : U32) → Decidable (r.Allows n)
  | any, _ => inferInstanceAs (Decidable True)
  | only nr, n => inferInstanceAs (Decidable (nr = n))

/-- The number check of the enforcer reads the value as the rule. -/
theorem not_nrMismatch_value (r : SiteRule) (n : U32) : ¬ NrMismatch r.value n ↔ r.Allows n := by
  cases r with
  | any => exact iff_of_true (fun h => h.1 (by decide)) trivial
  | only nr =>
    have hvalue : (only nr).value = policyValue nr.toNat := by
      rw [policyValue, if_pos (Int.natCast_nonneg _), BitVec.ofInt_natCast, BitVec.ofNat_toNat, BitVec.setWidth_eq]
      rfl
    rw [hvalue, not_nrMismatch_policyValue, BitVec.ofInt_natCast, BitVec.ofNat_toNat, BitVec.setWidth_eq]
    exact or_iff_right (by omega)

end SiteRule

/-! The files' rules. -/

def hasSite (sites : List U64) (site : U64) : Bool := sites.any (· = site)

@[simp] theorem hasSite_iff {sites : List U64} {site : U64} : hasSite sites site = true ↔ site ∈ sites := by
  simp [hasSite]

/-- What the parsed entry says of its site. -/
def PolicySite.rule (s : PolicySite) : SiteRule := if s.nr ≥ 0 then .only (BitVec.ofInt 32 s.nr) else .any

/-- The main binary's rule: the last entry's. -/
def mainRule (p : PolicyParse) (offset : U64) : Option SiteRule :=
  (p.sites.filter fun s => s.site - p.loadBase = offset).getLast?.map PolicySite.rule

/-- The number of the wrapper the site is found in, if it has one. -/
def wrapperRule (syms : List LibcSym) (site : U64) : SiteRule :=
  match (findSymAtAddr syms site).bind (syms[·]?) with
  | none => .any
  | some sym => ((nrBindings.find? (·.1 = sym.name)).map (SiteRule.only ·.2)).getD .any

/-- libc's rule with the call-graph filter. -/
def filterRule (allocated : Bool) (img : LibImage) (imports : List CStr) (site : U64) : Option SiteRule :=
  if hasSite (traceLibcCallgraph allocated (buildLibcSymtab img) (loadExecSections img 16) imports 2048).sites site then
    some (wrapperRule (buildLibcSymtab img) site)
  else none

/-- libc's rule without it. -/
def fallbackRule (img : LibImage) (site : U64) : Option SiteRule :=
  if cancelSyms.any fun name => hasSite (resolveLibcSyscallSites img name 4) site then some .any
  else
    match libcSyms.reverse.find? fun sym => hasSite (resolveLibcSyscallSites img sym.1 8) site with
    | some sym => some (.only sym.2)
    | none => if hasSite (scanElfTextForSyscalls img 512) site then some .any else none

def libcRule (tableAllocated allocated : Bool) (img : LibImage) (imports : List CStr) (site : U64) : Option SiteRule :=
  if imports ≠ [] ∧ tableAllocated ∧ buildLibcSymtab img ≠ [] then filterRule allocated img imports site
  else fallbackRule img site

/-- The linker's rule, by offset from libc's base. -/
def ldRule (ldBase libcBase : U64) (img : LibImage) (offset : U64) : Option SiteRule :=
  if (scanElfTextForSyscalls img 256).any fun site => ldBase + site - libcBase = offset then some .any else none

/-- The sites the call graph of a library reaches from the imports. -/
def reachedSites (allocated : Bool) (img : LibImage) (imports : List CStr) : List U64 :=
  if imports = [] then []
  else (traceLibCallgraph allocated (buildLibcSymtab img) (loadExecSections img 16) imports 512).sites

/-- The sites whitelisted in a library: those reached, or if there are none the first 512 of its text. -/
def librarySites (allocated : Bool) (img : LibImage) (imports : List CStr) : List U64 :=
  if reachedSites allocated img imports = [] then scanElfTextForSyscalls img 512 else reachedSites allocated img imports

def libraryRule (allocated : Bool) (img : LibImage) (imports : List CStr) (site : U64) : Option SiteRule :=
  if hasSite (librarySites allocated img imports) site then some .any else none

/-! The maps the updates leave. -/

def PolicyWrite.entry (w : PolicyWrite) : U64 × U64 := (w.key, w.value)

/-- `bpf_map_update_elem` with the flag of the update; a refusal goes unnoticed. -/
def PolicyWrite.apply (m : PolicyMap) (w : PolicyWrite) : PolicyMap :=
  if w.noExist then m.putNew w.key w.value else m.put w.key w.value

/-- A policy map after the updates, in order. -/
def policyAfter (ws : List PolicyWrite) : PolicyMap := run PolicyWrite.apply BoundedMap.empty ws

theorem run_apply_any {ws : List PolicyWrite} (h : ∀ w ∈ ws, w.noExist = false) (m : PolicyMap) :
    run PolicyWrite.apply m ws = m.putAll (ws.map PolicyWrite.entry) := by
  induction ws generalizing m with
  | nil => rfl
  | cons w ws ih =>
    obtain ⟨hw, hws⟩ := List.forall_mem_cons.mp h
    rw [run_cons, ih hws, PolicyWrite.apply, hw]
    rfl

theorem run_apply_new {ws : List PolicyWrite} (h : ∀ w ∈ ws, w.noExist = true) (m : PolicyMap) :
    run PolicyWrite.apply m ws = m.putNewAll (ws.map PolicyWrite.entry) := by
  induction ws generalizing m with
  | nil => rfl
  | cons w ws ih =>
    obtain ⟨hw, hws⟩ := List.forall_mem_cons.mp h
    rw [run_cons, ih hws, PolicyWrite.apply, hw]
    rfl

/-- **Overwriting updates, then inserting ones.** Where they fit, the last of the former wins, and
    of the latter the first one at a key that none of the former has. -/
theorem lookup_policyAfter {ws ws' : List PolicyWrite} (hany : ∀ w ∈ ws, w.noExist = false)
    (hnew : ∀ w ∈ ws', w.noExist = true) (hfit : ws.length + ws'.length ≤ 4096) (k : U64) :
    (policyAfter (ws ++ ws')).lookup k =
      (lastFor k (ws.map PolicyWrite.entry)).or
        (((ws'.map PolicyWrite.entry).find? fun e => e.1 = k).map Prod.snd) := by
  let keys := ((ws ++ ws').map PolicyWrite.entry).map Prod.fst
  have hkeys : keys.length ≤ 4096 := by simpa [keys] using hfit
  have hfirst : (ws.map PolicyWrite.entry).map Prod.fst ⊆ keys := by simp [keys]
  have hsecond : (ws'.map PolicyWrite.entry).map Prod.fst ⊆ keys := by simp [keys]
  have hheld : ((BoundedMap.empty : PolicyMap).putAll (ws.map PolicyWrite.entry)).entries.keys ⊆ keys :=
    BoundedMap.keys_putAll_subset (List.nil_subset _) hfirst
  rw [policyAfter, run_append, run_apply_any hany, run_apply_new hnew,
    BoundedMap.lookup_putNewAll keys hheld hsecond hkeys, BoundedMap.lookup_putAll_empty (by simp; omega)]

theorem keys_apply_subset {m : PolicyMap} {keys : List U64} (hm : m.entries.keys ⊆ keys) {w : PolicyWrite}
    (hw : w.key ∈ keys) : (w.apply m).entries.keys ⊆ keys := by
  unfold PolicyWrite.apply
  split
  · exact BoundedMap.keys_putNew_subset hm hw
  · exact BoundedMap.keys_put_subset hm hw

theorem keys_policyAfter_subset (ws : List PolicyWrite) :
    (policyAfter ws).entries.keys ⊆ ws.map PolicyWrite.key := by
  induction ws using List.reverseRecOn with
  | nil => exact List.nil_subset _
  | append_singleton ws w ih =>
    rw [policyAfter, run_append]
    refine keys_apply_subset (fun k hk => ?_) (by simp)
    rw [List.map_append]
    exact List.mem_append_left _ (ih hk)

/-- As many updates as the map has entries, and there is room for each of them. -/
theorem hasRoom_policyAfter {pre post : List PolicyWrite} {w : PolicyWrite}
    (h : (pre ++ w :: post).length ≤ 4096) : (policyAfter pre).HasRoom w.key := by
  have hheld : (policyAfter pre).entries.keys ⊆ (pre ++ w :: post).map PolicyWrite.key := by
    intro k hk
    rw [List.map_append]
    exact List.mem_append_left _ (keys_policyAfter_subset pre hk)
  exact BoundedMap.hasRoom_of_subset hheld (by simp) (by rwa [List.length_map])

/-! The main binary's map. -/

theorem policyValue_rule (s : PolicySite) : policyValue s.nr = s.rule.value := by
  unfold policyValue PolicySite.rule
  split <;> rfl

theorem lookup_main {c : FileContent} {p : PolicyParse} (h : parseSentinelSection maxPolicyEntries c = some p)
    (offset : U64) : (policyAfter (mainWrites p)).lookup offset = (mainRule p offset).map SiteRule.value := by
  have hany : ∀ w ∈ mainWrites p, w.noExist = false := List.forall_mem_map.mpr fun _ _ => rfl
  have hmap : policyAfter (mainWrites p) = p.installed :=
    (run_apply_any hany _).trans (congrArg BoundedMap.empty.putAll (mainWrites_entries p))
  rw [hmap, lookup_installed h, mainRule, Option.map_map]
  exact congrArg (Option.map · _) (funext policyValue_rule)

/-! libc's map. -/

/-- One value for the sites of each element: the last element that has the site. -/
theorem lastFor_flatMap_atSite {A : Type*} (k : U64) (sites : A → List U64) (value : A → U64) (noExist : Bool)
    (xs : List A) :
    lastFor k ((xs.flatMap fun x => (sites x).map (atSite (value x) noExist)).map PolicyWrite.entry) =
      (xs.reverse.find? fun x => hasSite (sites x) k).map value := by
  induction xs with
  | nil => rfl
  | cons x xs ih =>
    have hx : lastFor k (((sites x).map (atSite (value x) noExist)).map PolicyWrite.entry) =
        if k ∈ sites x then some (value x) else none := by
      have hconst := lastFor_map_const k id (value x) (sites x)
      simp only [id_eq, exists_eq_right] at hconst
      rw [List.map_map]
      exact hconst
    rw [List.flatMap_cons, List.map_append, lastFor_append, ih, hx, List.reverse_cons, List.find?_append,
      List.find?_singleton]
    cases xs.reverse.find? fun x => hasSite (sites x) k with
    | some y => rfl
    | none => by_cases hk : k ∈ sites x <;> simp [hasSite, hk]

/-- The first of inserting updates that all store 1. -/
theorem find_entry_const {ws : List PolicyWrite} (hone : ∀ w ∈ ws, w.value = 1) (k : U64) :
    ((ws.map PolicyWrite.entry).find? fun e => e.1 = k).map Prod.snd =
      if ∃ w ∈ ws, w.key = k then some 1 else none := by
  split
  · next h =>
    obtain ⟨w, hw, hk⟩ := h
    cases hfind : (ws.map PolicyWrite.entry).find? fun e => e.1 = k with
    | none =>
      have hnone := List.find?_eq_none.mp hfind w.entry (List.mem_map_of_mem hw)
      exact absurd (decide_eq_true hk) hnone
    | some e =>
      obtain ⟨w', hw', rfl⟩ := List.mem_map.mp (List.mem_of_find?_eq_some hfind)
      exact congrArg some (hone w' hw')
  · next h =>
    rw [List.find?_eq_none.mpr, Option.map_none]
    intro e he hk
    obtain ⟨w, hw, rfl⟩ := List.mem_map.mp he
    exact h ⟨w, hw, of_decide_eq_true hk⟩

theorem tracedValue_eq (syms : List LibcSym) (site : U64) : tracedValue syms site = (wrapperRule syms site).value := by
  unfold tracedValue wrapperRule
  cases (findSymAtAddr syms site).bind (syms[·]?) with
  | none => rfl
  | some sym => dsimp only; cases nrBindings.find? (·.1 = sym.name) <;> rfl

/-- The values of the sites traced, whatever their order and repetitions. -/
theorem lastFor_traced (k : U64) (syms : List LibcSym) (sites : List U64) :
    lastFor k ((sites.map fun site => atSite (tracedValue syms site) false site).map PolicyWrite.entry) =
      if k ∈ sites then some (wrapperRule syms k).value else none := by
  induction sites with
  | nil => rfl
  | cons site sites ih =>
    rw [List.map_cons, List.map_cons, lastFor_cons, ih]
    by_cases hk : k ∈ sites
    · rw [if_pos hk, if_pos (List.mem_cons_of_mem _ hk), Option.some_or]
    · rw [if_neg hk, Option.none_or]
      by_cases hsite : site = k
      · subst hsite
        rw [if_pos List.mem_cons_self, ← tracedValue_eq]
        exact if_pos rfl
      · have hne : k ∉ site :: sites := fun h => (List.mem_cons.mp h).elim (Ne.symm hsite) hk
        rw [if_neg hne]
        exact if_neg hsite

/-- The updates of the fallback that overwrite. -/
def fallbackAny (img : LibImage) : List PolicyWrite :=
  (libcSyms.flatMap fun sym => (resolveLibcSyscallSites img sym.1 8).map (atSite (boundTo sym.2) false)) ++
    (cancelSyms.flatMap fun name => (resolveLibcSyscallSites img name 4).map (atSite 1 false))

theorem lastFor_fallbackAny (img : LibImage) (k : U64) :
    lastFor k ((fallbackAny img).map PolicyWrite.entry) =
      if cancelSyms.any fun name => hasSite (resolveLibcSyscallSites img name 4) k then some 1
      else (libcSyms.reverse.find? fun sym => hasSite (resolveLibcSyscallSites img sym.1 8) k).map
        fun sym => boundTo sym.2 := by
  rw [fallbackAny, List.map_append, lastFor_append, lastFor_flatMap_atSite, lastFor_flatMap_atSite]
  split
  · next h =>
    obtain ⟨name, hname, hk⟩ := List.any_eq_true.mp h
    have hfound : (cancelSyms.reverse.find? fun name => hasSite (resolveLibcSyscallSites img name 4) k).isSome :=
      List.find?_isSome.mpr ⟨name, List.mem_reverse.mpr hname, hk⟩
    obtain ⟨found, hfound⟩ := Option.isSome_iff_exists.mp hfound
    rw [hfound]
    rfl
  · next h =>
    have hnone : (cancelSyms.reverse.find? fun name => hasSite (resolveLibcSyscallSites img name 4) k) = none := by
      rw [List.find?_eq_none]
      intro name hname hk
      exact h (List.any_eq_true.mpr ⟨name, List.mem_reverse.mp hname, hk⟩)
    rw [hnone]
    rfl

/-! No update is refused: the arrays the sites are collected in are small. -/

theorem length_flatMap_le {A B : Type*} {f : A → List B} {n : Nat} (xs : List A) (h : ∀ x ∈ xs, (f x).length ≤ n) :
    (xs.flatMap f).length ≤ xs.length * n := by
  induction xs with
  | nil => exact Nat.zero_le _
  | cons x xs ih =>
    obtain ⟨hx, hxs⟩ := List.forall_mem_cons.mp h
    rw [List.flatMap_cons, List.length_append, List.length_cons, Nat.succ_mul, Nat.add_comm]
    exact Nat.add_le_add (ih hxs) hx

theorem resolve_length (img : LibImage) (name : CStr) (n : Nat) : (resolveLibcSyscallSites img name n).length ≤ n := by
  unfold resolveLibcSyscallSites
  split
  · exact Nat.zero_le _
  · split
    · exact Nat.zero_le _
    · exact List.length_take_le _ _

theorem fallbackAny_length (img : LibImage) : (fallbackAny img).length ≤ 308 := by
  have hwrappers := length_flatMap_le (n := 8) (f := fun sym : CStr × U32 =>
    (resolveLibcSyscallSites img sym.1 8).map (atSite (boundTo sym.2) false)) libcSyms
    fun sym _ => by rw [List.length_map]; exact resolve_length img sym.1 8
  have hcancel := length_flatMap_le (n := 4) (f := fun name : CStr =>
    (resolveLibcSyscallSites img name 4).map (atSite 1 false)) cancelSyms
    fun name _ => by rw [List.length_map]; exact resolve_length img name 4
  rw [fallbackAny, List.length_append]
  have hsyms : libcSyms.length = 37 := rfl
  have hcancels : cancelSyms.length = 3 := rfl
  omega

theorem scan_length (img : LibImage) (n : Nat) : (scanElfTextForSyscalls img n).length ≤ n := List.length_take_le _ _

theorem trace_length (allocated : Bool) (syms : List LibcSym) (secs : List ExecSection) (seeds : WorkQueue Nat)
    (n : Nat) : (traceCallgraph allocated syms secs seeds n).sites.length ≤ n := by
  unfold traceCallgraph
  split
  · exact Nat.zero_le _
  · exact List.length_take_le _ _

theorem libcWrites_length (tableAllocated allocated : Bool) (img : LibImage) (imports : List CStr) :
    (libcWrites tableAllocated allocated img imports).length ≤ 2048 := by
  unfold libcWrites
  dsimp only
  split
  · rw [List.length_map]
    exact trace_length ..
  · have hany := fallbackAny_length img
    have hscan := scan_length img 512
    show (fallbackAny img ++ (scanElfTextForSyscalls img 512).map (atSite 1 true)).length ≤ 2048
    rw [List.length_append, List.length_map]
    omega

/-- Updates of the linker: inserting ones that store 1, at most 256 of them. -/
structure LinkerLike (ld : List PolicyWrite) : Prop where
  new : ∀ w ∈ ld, w.noExist = true
  one : ∀ w ∈ ld, w.value = 1
  short : ld.length ≤ 256

theorem ldWrites_linkerLike (ldBase libcBase : U64) (img : LibImage) : LinkerLike (ldWrites ldBase libcBase img) where
  new := List.forall_mem_map.mpr fun _ _ => rfl
  one := List.forall_mem_map.mpr fun _ _ => rfl
  short := by
    rw [ldWrites, List.length_map]
    exact scan_length img 256

/-- **libc's map.** libc's own rule, and where it has none the linker's. -/
theorem lookup_libc (tableAllocated allocated : Bool) (img : LibImage) (imports : List CStr) {ld : List PolicyWrite}
    (hld : LinkerLike ld) (k : U64) :
    (policyAfter (libcWrites tableAllocated allocated img imports ++ ld)).lookup k =
      ((libcRule tableAllocated allocated img imports k).or
        (if ∃ w ∈ ld, w.key = k then some .any else none)).map SiteRule.value := by
  unfold libcWrites libcRule
  dsimp only
  split
  · -- the filter overwrites only
    have hany : ∀ w ∈ (traceLibcCallgraph allocated (buildLibcSymtab img) (loadExecSections img 16) imports
        2048).sites.map fun site => atSite (tracedValue (buildLibcSymtab img) site) false site, w.noExist = false :=
      List.forall_mem_map.mpr fun _ _ => rfl
    have hlen := trace_length allocated (buildLibcSymtab img) (loadExecSections img 16)
      (seedQueue (buildLibcSymtab img) imports essentialSeeds) 2048
    rw [lookup_policyAfter hany hld.new (by rw [List.length_map]; have := hld.short; unfold traceLibcCallgraph; omega),
      lastFor_traced, find_entry_const hld.one, filterRule]
    simp only [hasSite_iff]
    split <;> split <;> rfl
  · -- the scan of the text and the linker's updates insert only
    have hsplit : libcFallback img ++ ld =
        fallbackAny img ++ ((scanElfTextForSyscalls img 512).map (atSite 1 true) ++ ld) := List.append_assoc ..
    have hany : ∀ w ∈ fallbackAny img, w.noExist = false := by
      intro w hw
      rcases List.mem_append.mp hw with hw | hw
      · obtain ⟨sym, -, hw⟩ := List.mem_flatMap.mp hw
        obtain ⟨site, -, rfl⟩ := List.mem_map.mp hw
        rfl
      · obtain ⟨name, -, hw⟩ := List.mem_flatMap.mp hw
        obtain ⟨site, -, rfl⟩ := List.mem_map.mp hw
        rfl
    have hnew : ∀ w ∈ (scanElfTextForSyscalls img 512).map (atSite 1 true) ++ ld, w.noExist = true :=
      List.forall_mem_append.mpr ⟨List.forall_mem_map.mpr fun _ _ => rfl, hld.new⟩
    have hone : ∀ w ∈ (scanElfTextForSyscalls img 512).map (atSite 1 true) ++ ld, w.value = 1 :=
      List.forall_mem_append.mpr ⟨List.forall_mem_map.mpr fun _ _ => rfl, hld.one⟩
    have hfit : (fallbackAny img).length +
        ((scanElfTextForSyscalls img 512).map (atSite 1 true) ++ ld).length ≤ 4096 := by
      have hfirst := fallbackAny_length img
      have hscan := scan_length img 512
      have hshort := hld.short
      rw [List.length_append, List.length_map]
      omega
    have hkeys : (∃ w ∈ (scanElfTextForSyscalls img 512).map (atSite 1 true) ++ ld, w.key = k) ↔
        k ∈ scanElfTextForSyscalls img 512 ∨ ∃ w ∈ ld, w.key = k := by
      simp only [List.mem_append, List.mem_map, or_and_right, exists_or, exists_exists_and_eq_and]
      simp only [atSite, exists_eq_right]
    rw [hsplit, lookup_policyAfter hany hnew hfit, lastFor_fallbackAny, find_entry_const hone, fallbackRule]
    simp only [hkeys]
    split
    · rfl
    · cases libcSyms.reverse.find? fun sym => hasSite (resolveLibcSyscallSites img sym.1 8) k with
      | some sym => rfl
      | none =>
        by_cases hscan : k ∈ scanElfTextForSyscalls img 512 <;> by_cases hlinker : ∃ w ∈ ld, w.key = k <;>
          simp [hscan, hlinker, SiteRule.value]

/-! The other libraries' maps. -/

theorem librarySites_length (allocated : Bool) (img : LibImage) (imports : List CStr) :
    (librarySites allocated img imports).length ≤ 512 := by
  have hreached : (reachedSites allocated img imports).length ≤ 512 := by
    unfold reachedSites traceLibCallgraph
    split
    · exact Nat.zero_le _
    · split
      · exact Nat.zero_le _
      · exact trace_length ..
  unfold librarySites
  split
  · exact scan_length img 512
  · exact hreached

theorem lookup_library (allocated : Bool) (img : LibImage) (imports : List CStr) (k : U64) :
    (policyAfter (libraryWrites allocated img imports)).lookup k =
      (libraryRule allocated img imports k).map SiteRule.value := by
  have hwrites : libraryWrites allocated img imports =
      [()].flatMap fun _ => (librarySites allocated img imports).map (atSite 1 false) := (List.flatMap_singleton ..).symm
  have hany : ∀ w ∈ libraryWrites allocated img imports, w.noExist = false := List.forall_mem_map.mpr fun _ _ => rfl
  have hlen : (libraryWrites allocated img imports).length ≤ 512 := by
    rw [libraryWrites, List.length_map]
    exact librarySites_length allocated img imports
  have hlookup := lookup_policyAfter hany (List.forall_mem_nil _) (by rw [List.length_nil]; omega) k
  rw [List.append_nil] at hlookup
  rw [hlookup, hwrites, lastFor_flatMap_atSite, libraryRule]
  by_cases hk : k ∈ librarySites allocated img imports <;> simp [hk, SiteRule.value]

/-! A start. -/

/-- A start of the loader on one text of the maps file: the files it reads and the outcomes of the
    allocations. -/
structure Installation where
  text : List U8
  mainPath : CStr
  junk : Nat → U64 × U64
  binary : FileContent
  policy : PolicyParse
  parsed : parseSentinelSection maxPolicyEntries binary = some policy
  imports : List CStr
  libc : LibImage
  tableAllocated : Bool
  traceAllocated : Bool
  ld : LibImage
  library : Nat → LibImage
  libraryAllocated : Nat → Bool

namespace Installation

/-- The linker's updates, if the start comes to them. -/
def ldUpdates (d : Installation) : List PolicyWrite :=
  if LdPopulated d.text then ldWrites (getLdBase (some d.text)) (libcBaseOf d.text) d.ld else []

/-- The updates of libc's map. -/
def libcUpdates (d : Installation) : List PolicyWrite :=
  if findLibcPath (some d.text) = none then []
  else libcWrites d.tableAllocated d.traceAllocated d.libc d.imports ++ d.ldUpdates

/-- The updates of a module's policy map, if it has one: libraries are numbered from
    `MODULE_DYNAMIC_BASE` on, in the order found. -/
def updates (d : Installation) (id : U32) : Option (List PolicyWrite) :=
  if id = moduleMain then some (mainWrites d.policy)
  else if id = moduleLibc then
    if libcBaseOf d.text = 0 then none else some d.libcUpdates
  else
    let i := (id - moduleDynamicBase).toNat
    if i < (libraries d.text d.mainPath).length then
      some (libraryWrites (d.libraryAllocated i) (d.library i) d.imports)
    else none

/-- `policy_registry`. -/
def registry (d : Installation) (id : U32) : Option (U64 → Option U64) :=
  (d.updates id).map fun ws => (policyAfter ws).lookup

/-- The kernel's maps after the start; `rest` gives those that are not about modules. -/
def maps (d : Installation) (rest : BpfMaps) : BpfMaps :=
  { rest with
    vma := vmaAfter (loaderStart (steadyEnv d.text d.mainPath d.junk)).writes
    policyRegistry := d.registry }

/-- The abstract policy. -/
def rule (d : Installation) (id : U32) (offset : U64) : Option SiteRule :=
  if id = moduleMain then mainRule d.policy offset
  else if id = moduleLibc then
    if libcBaseOf d.text = 0 ∨ findLibcPath (some d.text) = none then none
    else (libcRule d.tableAllocated d.traceAllocated d.libc d.imports offset).or
      (if LdPopulated d.text then ldRule (getLdBase (some d.text)) (libcBaseOf d.text) d.ld offset else none)
  else
    let i := (id - moduleDynamicBase).toNat
    if i < (libraries d.text d.mainPath).length then
      libraryRule (d.libraryAllocated i) (d.library i) d.imports offset
    else none

theorem ldUpdates_linkerLike (d : Installation) : LinkerLike d.ldUpdates := by
  unfold ldUpdates
  split
  · exact ldWrites_linkerLike ..
  · exact ⟨List.forall_mem_nil _, List.forall_mem_nil _, Nat.zero_le _⟩

theorem ldUpdates_rule (d : Installation) (k : U64) :
    (if ∃ w ∈ d.ldUpdates, w.key = k then some SiteRule.any else none) =
      if LdPopulated d.text then ldRule (getLdBase (some d.text)) (libcBaseOf d.text) d.ld k else none := by
  unfold ldUpdates
  split
  · simp only [ldWrites, ldRule, List.mem_map, exists_exists_and_eq_and, List.any_eq_true, decide_eq_true_eq]
  · simp

/-- **The maps hold the policy.** -/
theorem registry_lookup (d : Installation) (id : U32) (k : U64) :
    (d.registry id).bind (· k) = (d.rule id k).map SiteRule.value := by
  unfold registry updates rule
  split
  · exact lookup_main d.parsed k
  · split
    · by_cases hbase : libcBaseOf d.text = 0
      · rw [if_pos hbase, if_pos (.inl hbase)]
        rfl
      · rw [if_neg hbase]
        show (policyAfter d.libcUpdates).lookup k = _
        unfold libcUpdates
        by_cases hpath : findLibcPath (some d.text) = none
        · rw [if_pos hpath, if_pos (.inr hpath)]
          rfl
        · rw [if_neg hpath, if_neg (fun h => h.elim hbase hpath), lookup_libc _ _ _ _ d.ldUpdates_linkerLike,
            ldUpdates_rule]
    · dsimp only
      split
      · exact lookup_library ..
      · rfl

theorem libcUpdates_length (d : Installation) : d.libcUpdates.length ≤ 4096 := by
  unfold libcUpdates
  split
  · exact Nat.zero_le _
  · have hlibc := libcWrites_length d.tableAllocated d.traceAllocated d.libc d.imports
    have hld := d.ldUpdates_linkerLike.short
    rw [List.length_append]
    omega

/-- **No update is refused** for want of room. -/
theorem updates_hasRoom {d : Installation} {id : U32} {pre post : List PolicyWrite} {w : PolicyWrite}
    (h : d.updates id = some (pre ++ w :: post)) : (policyAfter pre).HasRoom w.key := by
  suffices hfit : (pre ++ w :: post).length ≤ 4096 from hasRoom_policyAfter hfit
  unfold updates at h
  dsimp only at h
  split_ifs at h
  · rw [← Option.some.inj h, mainWrites, List.length_map]
    exact parseSentinelSection_length d.parsed
  · rw [← Option.some.inj h]
    exact d.libcUpdates_length
  · have hlen := librarySites_length (d.libraryAllocated (id - moduleDynamicBase).toNat)
      (d.library (id - moduleDynamicBase).toNat) d.imports
    rw [← Option.some.inj h, libraryWrites, List.length_map]
    exact hlen.trans (by omega)

end Installation

/-! The enforcer on these maps. -/

section
variable {c : BpfConfig} {m : BpfMaps} {t : Thread} {syscallNr : U32}

theorem deny_eq_none_iff (r : CheckResult) : r.deny = none ↔ r.decision = none := Option.map_eq_none_iff.symm

/-- What it takes for an attributed call to be let through, with enforcement on. -/
theorem Attributed.allowed_iff {site : U64} {mod : VmaValue} (h : Attributed m t site mod) (hlearn : c.learnMode = false)
    (hcgroup : c.cgroupFilter = true → m.cgroup t.cgroupId ≠ none) :
    (sentinelCheck c m t syscallNr).deny = none ↔
      ∃ value, (m.policyRegistry mod.moduleId).bind (· (site - mod.baseAddr)) = some value ∧
        exceedsThreadLimit m t syscallNr = false ∧ ¬ NrMismatch value syscallNr ∧
        stackDecision c m (m.cfiPolicy (site - mod.baseAddr)) t.shadow t.caller mod.baseAddr = none := by
  have hin : ¬ (c.cgroupFilter = true ∧ m.cgroup t.cgroupId = none) := fun hout => hcgroup hout.1 hout.2
  rw [deny_eq_none_iff, h.decision_eq, earlyDecision, if_neg hin, if_neg (by rw [hlearn]; decide)]
  cases m.policyRegistry mod.moduleId with
  | none => simp
  | some policyMap =>
    dsimp only [Option.bind_some]
    cases policyMap (site - mod.baseAddr) with
    | none => simp
    | some value =>
      dsimp only
      cases hlimit : exceedsThreadLimit m t syscallNr with
      | true => simp
      | false =>
        by_cases hnr : NrMismatch value syscallNr
        · simp [hnr]
        · simp [hnr]

/-- A tracked thread's call that is let through is attributed to a module. -/
theorem attributed_of_allowed (htracked : m.targetPid t.tgid ≠ none) (hlearn : c.learnMode = false)
    (hcgroup : c.cgroupFilter = true → m.cgroup t.cgroupId ≠ none) (h : (sentinelCheck c m t syscallNr).deny = none) :
    ∃ rip mod, t.rip = some rip ∧ Attributed m t (rip - 2) mod := by
  obtain ⟨rip, mod, hrip, hmod, -⟩ := sentinelCheck_allowed htracked hlearn hcgroup h
  exact ⟨rip, mod, hrip, htracked, by rw [hrip, BitVec.sub_add_cancel], hmod⟩

end

/-- The program of `spacedText` with one site for any number, and a libc whose one site is in `write`. -/
def spacedInstallation : Installation where
  text := spacedText
  mainPath := packedPath
  junk := noJunk
  binary := signedBinary 0x10
  policy := ⟨1, [⟨0x1000, -1⟩], 0⟩
  parsed := by decide +kernel
  imports := []
  libc :=
    { phdrs := [⟨true, 0⟩]
      hasShstrtab := true
      sections := []
      symbolTables := [[⟨some (ascii "write"), 0x1000, 5, 2⟩]]
      execSections := [⟨0x1000, [0x0f, 0x05, 0x90, 0x90, 0xc3], by decide⟩] }
  tableAllocated := true
  traceAllocated := true
  ld := prelinkedImage
  library := fun _ => prelinkedImage
  libraryAllocated := fun _ => true

end SentinelStack.Cc
