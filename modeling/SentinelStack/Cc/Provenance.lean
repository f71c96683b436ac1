import SentinelStack.Cc.Policy
import SentinelStack.Lib.Run

/- Where the installed policy comes from: the loader's `main` as far as it opens
   the path `binary` and writes to the main policy map and to `cfi_policy`,
   interleaved with replacements of the file at that path.

   The loader opens the path anew at each step: to verify it, to parse each of its
   policy sections, to look up function sizes, and at every hot reload. Main
   result: `provenance_of_verified_reads` — as long as each of those steps finds
   the content that was verified, and the hardcoded CFI fallback finds nothing to
   install, every entry written comes from the policy sections of that content;
   `replaced_policy_installed` is a run in which one does not. -/
namespace SentinelStack.Cc
open SentinelStack.Lib

/-! The entries. -/

/-- The policy value: the syscall number with its flag, or 1 for any number. -/
def policyValue (nr : Int) : U64 :=
  if nr ≥ 0 then policyFlagCheckNr ||| (BitVec.ofInt 32 nr).setWidth 64 else 1

/-- The entries for the main policy map: site offsets and policy values. -/
def PolicyParse.entries (p : PolicyParse) : List (U64 × U64) :=
  p.sites.map fun s => (s.site - p.loadBase, policyValue s.nr)

/-- The size of the function at the address, by the first symbol table that knows one; else 4096. -/
def funcSize (funcAddr : U64) : FileContent → U64
  | .elf img =>
    ((img.symtabs.filterMap fun tab =>
      (tab.find? fun s => s.value = funcAddr ∧ s.IsFunc).map (·.size)).find? (· ≠ 0)).getD 4096
  | _ => 4096

/-- The entry for `cfi_policy`: the site's offset, and the range of the function it belongs to. -/
def CfiEntry.entry (loadBase : U64) (binary : FileContent) (e : CfiEntry) : U64 × CfiRange :=
  (e.siteAddr - loadBase, ⟨e.funcAddr - loadBase, e.funcAddr - loadBase + funcSize e.funcAddr binary⟩)

/-- The last symbol of the name in any symbol table. -/
def ElfImage.lastSymbol (img : ElfImage) (name : CStr) : Option Symbol :=
  (img.symtabs.flatten.filter fun s => s.name = some name).getLast?

/-- A symbol of the name with a nonzero address: what the fallback takes for defined. -/
def ElfImage.definedSymbol (img : ElfImage) (name : CStr) : Option Symbol :=
  (img.lastSymbol name).filter fun s => s.value ≠ 0

/-- `setup_cfi_policy`: the entry it installs for `do_write` called from `safe_caller`. -/
def setupCfiPolicy (sites : List PolicySite) (loadBase : U64) : FileContent → Option (U64 × CfiRange)
  | .elf img =>
    match img.definedSymbol (ascii "do_write"), img.definedSymbol (ascii "safe_caller") with
    | some doWrite, some safeCaller =>
      let doWriteAddr := doWrite.value - loadBase
      let safeCallerAddr := safeCaller.value - loadBase
      -- a site of the policy inside `do_write`, or a guess
      let syscallOffset := ((sites.map fun s => s.site - loadBase).find? fun adj =>
        adj ≥ doWriteAddr ∧ adj < doWriteAddr + doWrite.size).getD (doWriteAddr + 16)
      some (syscallOffset, ⟨safeCallerAddr, safeCallerAddr + safeCaller.size⟩)
    | _, _ => none
  | _ => none

/-! The loader's run. -/

/-- Where the loader is, with what it holds in memory there. -/
inductive LoaderPhase where
  | verify
  | parsePolicy
  | populateMain (p : PolicyParse)
  | parseImports (p : PolicyParse)
  | parseCfi (p : PolicyParse)
  | installCfi (p : PolicyParse) (records : List CfiEntry)
  | legacyCfi (p : PolicyParse)
  | running
  | stopped
  deriving DecidableEq

/-- `--surface-report`, and whether there is a ring buffer to poll (`--audit`). -/
structure LoaderOptions where
  surfaceReport : Bool
  audit : Bool

/-- The file at the path, the content `verify_signature` accepted, and every entry written so far. -/
structure LoadState where
  path : FileContent
  verified : Option FileContent
  phase : LoaderPhase
  mainWrites : List (U64 × U64)
  cfiWrites : List (U64 × CfiRange)

inductive LoadEvent where
  /-- Another party replaces the file. -/
  | replace (content : FileContent)
  /-- The loader's next step. -/
  | next
  /-- The polling loop finds that SIGHUP came. -/
  | reload
  /-- The loader ends: a call failed, a signal came, or the child is gone. -/
  | stop

def LoadState.start (content : FileContent) : LoadState := ⟨content, none, .verify, [], []⟩

section
variable (ed : SignatureScheme) (sha256 : List U8 → List U8) (keys : KeyStore ed.PubKey) (opts : LoaderOptions)

namespace LoadState

/-- The next step of `main`, up to the polling loop. The imports go to the libc policy only. -/
def next (s : LoadState) : LoadState :=
  match s.phase with
  | .verify =>
    if verifySignature ed sha256 keys s.path then { s with verified := some s.path, phase := .parsePolicy }
    else { s with phase := .stopped }
  | .parsePolicy =>
    match parseSentinelSection maxPolicyEntries s.path with
    | none => { s with phase := .stopped }
    | some p => if p.count < 0 then { s with phase := .stopped } else { s with phase := .populateMain p }
  | .populateMain p =>
    { s with
      mainWrites := s.mainWrites ++ p.entries
      phase := if opts.surfaceReport then .stopped else .parseImports p }
  | .parseImports p => { s with phase := .parseCfi p }
  | .parseCfi p =>
    match parseSentinelCfi maxPolicyEntries s.path with
    | [] => { s with phase := .legacyCfi p }
    | r :: records => { s with phase := .installCfi p (r :: records) }
  | .installCfi p records =>
    { s with cfiWrites := s.cfiWrites ++ records.map (·.entry p.loadBase s.path), phase := .running }
  | .legacyCfi p =>
    { s with cfiWrites := s.cfiWrites ++ (setupCfiPolicy p.sites p.loadBase s.path).toList, phase := .running }
  | .running => s
  | .stopped => s

/-- The hot reload of the polling loop. -/
def reload (s : LoadState) : LoadState :=
  match s.phase with
  | .running =>
    if ¬ opts.audit then s
    else
      match parseSentinelSection maxPolicyEntries s.path with
      | none => { s with phase := .stopped }
      | some p => if p.count > 0 then { s with mainWrites := s.mainWrites ++ p.entries } else s
  | _ => s

def step (s : LoadState) : LoadEvent → LoadState
  | .replace content => { s with path := content }
  | .next => s.next ed sha256 keys opts
  | .reload => s.reload opts
  | .stop => { s with phase := .stopped }

end LoadState
end

/-! Provenance. -/

/-- The main policy a content carries. -/
def mainEntries (c : FileContent) : List (U64 × U64) :=
  match parseSentinelSection maxPolicyEntries c with
  | none => []
  | some p => p.entries

/-- The CFI policy a content carries in `.sentinel_cfi`. -/
def cfiEntries (c : FileContent) : List (U64 × CfiRange) :=
  match parseSentinelSection maxPolicyEntries c with
  | none => []
  | some p => (parseSentinelCfi maxPolicyEntries c).map (·.entry p.loadBase c)

/-- One of the two symbols of the fallback is not defined. -/
def LacksFallbackSymbols : FileContent → Prop
  | .elf img => img.definedSymbol (ascii "do_write") = none ∨ img.definedSymbol (ascii "safe_caller") = none
  | _ => True

theorem setupCfiPolicy_eq_none {sites : List PolicySite} {loadBase : U64} {c : FileContent} :
    setupCfiPolicy sites loadBase c = none ↔ LacksFallbackSymbols c := by
  cases c with
  | unopenable => exact ⟨fun _ => trivial, fun _ => rfl⟩
  | notElf => exact ⟨fun _ => trivial, fun _ => rfl⟩
  | elf img =>
    unfold setupCfiPolicy LacksFallbackSymbols
    cases hwrite : img.definedSymbol (ascii "do_write") with
    | none => simp [hwrite]
    | some doWrite =>
      cases hcaller : img.definedSymbol (ascii "safe_caller") with
      | none => simp [hcaller]
      | some safeCaller => simp [hwrite, hcaller]

section
variable (ed : SignatureScheme) (sha256 : List U8 → List U8) (keys : KeyStore ed.PubKey) (opts : LoaderOptions)

/-- Every entry written comes from a policy section of a content that `verify_signature` accepted. -/
def Provenance (s : LoadState) : Prop :=
  (∀ w ∈ s.mainWrites, ∃ c ∈ s.verified, verifySignature ed sha256 keys c = true ∧ w ∈ mainEntries c) ∧
    ∀ w ∈ s.cfiWrites, ∃ c ∈ s.verified, verifySignature ed sha256 keys c = true ∧ w ∈ cfiEntries c

/-- The phases that open the path for a policy section, or for the sizes of its functions. -/
def LoaderPhase.opensPolicy : LoaderPhase → Bool
  | .parsePolicy => true
  | .parseCfi _ => true
  | .installCfi _ _ => true
  | _ => false

def LoaderPhase.isLegacyCfi : LoaderPhase → Bool
  | .legacyCfi _ => true
  | _ => false

/-- The step finds the verified content at the path, where it opens the path for a policy; the
    fallback finds one of its symbols undefined. -/
def ReadsVerified (s : LoadState) : LoadEvent → Prop
  | .next =>
    (s.phase.opensPolicy → s.verified = some s.path) ∧ (s.phase.isLegacyCfi → LacksFallbackSymbols s.path)
  | .reload => s.phase = .running → opts.audit → s.verified = some s.path
  | _ => True

/-- What the loader holds in memory was parsed from `c`. -/
def LoaderPhase.HoldsOf (c : FileContent) : LoaderPhase → Prop
  | .verify => False
  | .parsePolicy => True
  | .populateMain p => parseSentinelSection maxPolicyEntries c = some p
  | .parseImports p => parseSentinelSection maxPolicyEntries c = some p
  | .parseCfi p => parseSentinelSection maxPolicyEntries c = some p
  | .installCfi p records =>
    parseSentinelSection maxPolicyEntries c = some p ∧ parseSentinelCfi maxPolicyEntries c = records
  | .legacyCfi p => parseSentinelSection maxPolicyEntries c = some p ∧ parseSentinelCfi maxPolicyEntries c = []
  | .running => True
  | .stopped => True

/-- Nothing is written before the verification, and after it only what the verified content carries. -/
inductive LoadInv : LoadState → Prop
  | unverified {path : FileContent} {phase : LoaderPhase} (hphase : phase = .verify ∨ phase = .stopped) :
      LoadInv ⟨path, none, phase, [], []⟩
  | verified {path c : FileContent} {phase : LoaderPhase} {mainWrites : List (U64 × U64)}
      {cfiWrites : List (U64 × CfiRange)} (haccept : verifySignature ed sha256 keys c = true)
      (hholds : phase.HoldsOf c) (hmain : mainWrites ⊆ mainEntries c) (hcfi : cfiWrites ⊆ cfiEntries c) :
      LoadInv ⟨path, some c, phase, mainWrites, cfiWrites⟩

end

section
variable {ed : SignatureScheme} {sha256 : List U8 → List U8} {keys : KeyStore ed.PubKey} {opts : LoaderOptions}
  {s : LoadState}

theorem LoadInv.provenance (h : LoadInv ed sha256 keys s) : Provenance ed sha256 keys s := by
  cases h with
  | unverified hphase => exact ⟨fun w hw => absurd hw List.not_mem_nil, fun w hw => absurd hw List.not_mem_nil⟩
  | verified haccept hholds hmain hcfi =>
    exact ⟨fun w hw => ⟨_, rfl, haccept, hmain hw⟩, fun w hw => ⟨_, rfl, haccept, hcfi hw⟩⟩

theorem mainEntries_of_parse {c : FileContent} {p : PolicyParse}
    (h : parseSentinelSection maxPolicyEntries c = some p) : mainEntries c = p.entries := by
  rw [mainEntries, h]

theorem loadInv_next_unverified {path : FileContent} {phase : LoaderPhase} (hphase : phase = .verify ∨ phase = .stopped) :
    LoadInv ed sha256 keys (LoadState.next ed sha256 keys opts ⟨path, none, phase, [], []⟩) := by
  cases hphase with
  | inl hverify =>
    subst hverify
    unfold LoadState.next
    dsimp only
    split
    next haccept => exact .verified haccept trivial (List.nil_subset _) (List.nil_subset _)
    · exact .unverified (.inr rfl)
  | inr hstopped =>
    subst hstopped
    exact .unverified (.inr rfl)

/-- After the verification, one case for each phase. -/
theorem LoadInv.next (h : LoadInv ed sha256 keys s) (hread : ReadsVerified opts s .next) :
    LoadInv ed sha256 keys (s.next ed sha256 keys opts) := by
  cases h with
  | unverified hphase => exact loadInv_next_unverified hphase
  | @verified path c phase mainWrites cfiWrites haccept hholds hmain hcfi =>
    cases phase with
    | verify => exact hholds.elim
    | parsePolicy =>
      obtain rfl : c = path := Option.some.inj (hread.1 rfl)
      unfold LoadState.next
      dsimp only
      split
      · exact .verified haccept trivial hmain hcfi
      next p hp =>
        split
        · exact .verified haccept trivial hmain hcfi
        · exact .verified haccept hp hmain hcfi
    | populateMain p =>
      have hall : mainWrites ++ p.entries ⊆ mainEntries c :=
        List.append_subset.mpr ⟨hmain, by rw [mainEntries_of_parse hholds]; exact List.Subset.refl _⟩
      unfold LoadState.next
      dsimp only
      split
      · exact .verified haccept trivial hall hcfi
      · exact .verified haccept hholds hall hcfi
    | parseImports p => exact .verified haccept hholds hmain hcfi
    | parseCfi p =>
      obtain rfl : c = path := Option.some.inj (hread.1 rfl)
      unfold LoadState.next
      dsimp only
      split
      next hnone => exact .verified haccept ⟨hholds, hnone⟩ hmain hcfi
      next r records hsome => exact .verified haccept ⟨hholds, hsome⟩ hmain hcfi
    | installCfi p records =>
      obtain rfl : c = path := Option.some.inj (hread.1 rfl)
      refine .verified haccept trivial hmain (List.append_subset.mpr ⟨hcfi, ?_⟩)
      rw [cfiEntries, hholds.1, hholds.2]
      exact List.Subset.refl _
    | legacyCfi p =>
      have hnone : setupCfiPolicy p.sites p.loadBase path = none := setupCfiPolicy_eq_none.mpr (hread.2 rfl)
      unfold LoadState.next
      dsimp only
      rw [hnone]
      exact .verified haccept trivial hmain (List.append_subset.mpr ⟨hcfi, List.nil_subset _⟩)
    | running => exact .verified haccept trivial hmain hcfi
    | stopped => exact .verified haccept trivial hmain hcfi

theorem LoadState.reload_of_ne (h : s.phase ≠ .running) : s.reload opts = s := by
  unfold LoadState.reload
  split
  next hrunning => exact absurd hrunning h
  · rfl

theorem LoadInv.reload (h : LoadInv ed sha256 keys s) (hread : ReadsVerified opts s .reload) :
    LoadInv ed sha256 keys (s.reload opts) := by
  by_cases hrunning : s.phase = .running
  · cases h with
    | unverified hphase =>
      cases hphase with
      | inl hverify => cases hverify.symm.trans hrunning
      | inr hstopped => cases hstopped.symm.trans hrunning
    | @verified path c phase mainWrites cfiWrites haccept hholds hmain hcfi =>
      dsimp only at hrunning
      subst hrunning
      unfold LoadState.reload
      dsimp only
      split
      · exact .verified haccept trivial hmain hcfi
      next haudit =>
        obtain rfl : c = path := Option.some.inj (hread rfl (by simpa using haudit))
        split
        · exact .verified haccept trivial hmain hcfi
        next p hp =>
          split
          · refine .verified haccept trivial (List.append_subset.mpr ⟨hmain, ?_⟩) hcfi
            rw [mainEntries_of_parse hp]
            exact List.Subset.refl _
          · exact .verified haccept trivial hmain hcfi
  · rw [LoadState.reload_of_ne hrunning]
    exact h

/-- **One event.** -/
theorem LoadInv.step (h : LoadInv ed sha256 keys s) (event : LoadEvent) (hread : ReadsVerified opts s event) :
    LoadInv ed sha256 keys (s.step ed sha256 keys opts event) := by
  cases event with
  | next => exact h.next hread
  | reload => exact h.reload hread
  | replace content =>
    cases h with
    | unverified hphase => exact .unverified hphase
    | verified haccept hholds hmain hcfi => exact .verified haccept hholds hmain hcfi
  | stop =>
    cases h with
    | unverified hphase => exact .unverified (.inr rfl)
    | verified haccept hholds hmain hcfi => exact .verified haccept trivial hmain hcfi

/-- A reload that finds an entry the verified content does not have installs it. -/
theorem reload_breaks (hphase : s.phase = .running) (haudit : opts.audit) {w : U64 × U64}
    (hw : w ∈ mainEntries s.path) (hnew : ∀ c ∈ s.verified, w ∉ mainEntries c) :
    ¬ Provenance ed sha256 keys (s.reload opts) := by
  intro hprov
  cases hp : parseSentinelSection maxPolicyEntries s.path with
  | none => simp [mainEntries, hp] at hw
  | some p =>
    rw [mainEntries_of_parse hp] at hw
    have hsites : p.sites ≠ [] := by
      intro hnil
      simp [PolicyParse.entries, hnil] at hw
    have hcount : p.count > 0 := by
      rw [parseSentinelSection_count hp hsites]
      exact Int.natCast_pos.mpr (List.length_pos_of_ne_nil hsites)
    have hreload : s.reload opts = { s with mainWrites := s.mainWrites ++ p.entries } := by
      simp [LoadState.reload, hphase, haudit, hp, hcount]
    rw [hreload] at hprov
    obtain ⟨c, hc, -, hmem⟩ := hprov.1 w (List.mem_append_right _ hw)
    exact hnew c hc hmem

/-- The fallback installs an entry of its own when it finds both symbols. -/
theorem fallback_breaks (h : LoadInv ed sha256 keys s) {p : PolicyParse} (hphase : s.phase = .legacyCfi p)
    (hsymbols : ¬ LacksFallbackSymbols s.path) : ¬ Provenance ed sha256 keys (s.next ed sha256 keys opts) := by
  intro hprov
  cases hentry : setupCfiPolicy p.sites p.loadBase s.path with
  | none => exact hsymbols (setupCfiPolicy_eq_none.mp hentry)
  | some w =>
    have hnext : s.next ed sha256 keys opts = { s with cfiWrites := s.cfiWrites ++ [w], phase := .running } := by
      simp [LoadState.next, hphase, hentry]
    rw [hnext] at hprov
    obtain ⟨c, hc, -, hmem⟩ := hprov.2 w (List.mem_append_right _ List.mem_cons_self)
    cases h with
    | unverified _ => cases hc
    | verified _ hholds _ _ =>
      cases hc
      dsimp only at hphase
      subst hphase
      rw [cfiEntries, hholds.1, hholds.2] at hmem
      cases hmem

end

/-- **Provenance, while the verified content is what is read.** In every run in which each opening
    of the path for a policy finds the verified content there, and the fallback nothing to
    install, every entry ever written comes from the policy sections of that content. After such a
    run, a reload that finds an entry the verified content does not have breaks this, and so does
    the fallback when it finds its symbols. -/
theorem provenance_of_verified_reads (ed : SignatureScheme) (sha256 : List U8 → List U8) (keys : KeyStore ed.PubKey)
    (opts : LoaderOptions) (content : FileContent) (events : List LoadEvent)
    (hreads : Along (LoadState.step ed sha256 keys opts) (ReadsVerified opts) (.start content) events) :
    (∀ pre, pre <+: events →
        Provenance ed sha256 keys (run (LoadState.step ed sha256 keys opts) (.start content) pre)) ∧
      (∀ s w, s = run (LoadState.step ed sha256 keys opts) (.start content) events → s.phase = .running →
        opts.audit → w ∈ mainEntries s.path → (∀ c ∈ s.verified, w ∉ mainEntries c) →
        ¬ Provenance ed sha256 keys (s.step ed sha256 keys opts .reload)) ∧
      ∀ s p, s = run (LoadState.step ed sha256 keys opts) (.start content) events → s.phase = .legacyCfi p →
        ¬ LacksFallbackSymbols s.path → ¬ Provenance ed sha256 keys (s.step ed sha256 keys opts .next) := by
  have hinv : ∀ pre, pre <+: events →
      LoadInv ed sha256 keys (run (LoadState.step ed sha256 keys opts) (.start content) pre) := by
    intro pre hpre
    exact (hreads.of_prefix hpre).inv (fun _ event h hread => h.step event hread) (.unverified (.inl rfl))
  refine ⟨fun pre hpre => (hinv pre hpre).provenance, ?_, ?_⟩
  · intro s w _ hphase haudit hw hnew
    exact reload_breaks hphase haudit hw hnew
  · intro s p hs hphase hsymbols
    exact fallback_breaks (hs ▸ hinv events List.prefix_rfl) hphase hsymbols

instance : (c : FileContent) → Decidable (LacksFallbackSymbols c)
  | .elf _ => inferInstanceAs (Decidable (_ ∨ _))
  | .unopenable => isTrue trivial
  | .notElf => isTrue trivial

instance (opts : LoaderOptions) (s : LoadState) : (event : LoadEvent) → Decidable (ReadsVerified opts s event)
  | .next => inferInstanceAs (Decidable (_ ∧ _))
  | .reload => inferInstanceAs (Decidable (_ → _ → _))
  | .replace _ => isTrue trivial
  | .stop => isTrue trivial

instance (ed : SignatureScheme) (sha256 : List U8 → List U8) (keys : KeyStore ed.PubKey) (s : LoadState) :
    Decidable (Provenance ed sha256 keys s) :=
  @instDecidableAnd _ _ (List.decidableBAll _ s.mainWrites) (List.decidableBAll _ s.cfiWrites)

/-- A `.sentinel` section with one entry, for any syscall number, at `page * 256`. -/
def onePolicyEntry (page : U8) : List U8 :=
  [0x54, 0x4e, 0x45, 0x53, 2, 0, 0, 0] ++ [0, page, 0, 0, 0, 0, 0, 0] ++ List.replicate 16 0

/-- A binary with that policy, and the signature of the one with its entry at 0x1000. -/
def onePolicyBinary (page : U8) : FileContent :=
  .elf ⟨[], true, [.ofBytes (ascii ".text") [0x90], .ofBytes (ascii ".sentinel") (onePolicyEntry page),
    .ofBytes (ascii ".signature") (fitTo 64 (fitTo 32 (0x90 :: onePolicyEntry 0x10)))]⟩

def auditOnly : LoaderOptions := ⟨false, true⟩

/-- The file is replaced after the verification, and its unsigned entry is installed. -/
theorem replaced_policy_installed :
    verifySignature copyScheme (fitTo 32) oneKey (onePolicyBinary 0x20) = false ∧
      (run (LoadState.step copyScheme (fitTo 32) oneKey auditOnly) (.start (onePolicyBinary 0x10))
        [.next, .replace (onePolicyBinary 0x20), .next, .next]).mainWrites = [(0x2000, 1)] ∧
      ¬ Provenance copyScheme (fitTo 32) oneKey
        (run (LoadState.step copyScheme (fitTo 32) oneKey auditOnly) (.start (onePolicyBinary 0x10))
          [.next, .replace (onePolicyBinary 0x20), .next, .next]) := by
  decide +kernel

theorem provenance_of_steady_file :
    (run (LoadState.step copyScheme (fitTo 32) oneKey auditOnly) (.start (onePolicyBinary 0x10))
        [.next, .next, .next, .next, .next, .next, .reload]).mainWrites = [(0x1000, 1), (0x1000, 1)] ∧
      Provenance copyScheme (fitTo 32) oneKey
        (run (LoadState.step copyScheme (fitTo 32) oneKey auditOnly) (.start (onePolicyBinary 0x10))
          [.next, .next, .next, .next, .next, .next, .reload]) := by
  refine ⟨by decide +kernel,
    (provenance_of_verified_reads copyScheme (fitTo 32) oneKey auditOnly _ _ ?_).1 _ List.prefix_rfl⟩
  decide +kernel

end SentinelStack.Cc
