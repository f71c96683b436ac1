import SentinelStack.Cc.Provenance
import SentinelStack.Cc.StartUp

/- `main` from the verification of the binary to the child: the policy is parsed,
   and a negative count ends the loader.

   `parse_sentinel_section` counts its entries up from 0 and returns the count at
   one label, which the branches that print `[FATAL]` jump to as well: a section it
   refuses looks like a section without entries. Main result:
   `malformed_policy_stops_iff` — a malformed policy is reported as an error, and
   ends `main` before there is a child, if and only if the file cannot be opened. -/
namespace SentinelStack.Cc
open SentinelStack.Lib

/-- The outcome of `sentinel_bpf__open`, `sentinel_bpf__load` and `sentinel_bpf__attach`. -/
inductive BpfSetup where
  | openFailed
  | loadFailed
  | attachFailed
  | attached
  deriving DecidableEq, Repr

/-- `main` has ended without a fork, or it has the programs attached. -/
inductive MainState where
  | ended
  | started (s : StartUp)

def MainState.HasChild : MainState → Prop
  | ended => False
  | started s => s.child ≠ .absent

def StartOptions.loaderOptions (o : StartOptions) : LoaderOptions := ⟨o.surfaceReport, o.ringBuffer⟩

section
variable (ed : SignatureScheme) (sha256 : List U8 → List U8) (keys : KeyStore ed.PubKey) (o : StartOptions)

/-- `main` has verified one content of the file and parsed the policy of another, or the same. -/
def mainParsed (verified parsed : FileContent) : LoadState :=
  run (LoadState.step ed sha256 keys o.loaderOptions) (.start verified) [.next, .replace parsed, .next]

/-- `main` up to any call after the attachment. -/
def mainRun (verified parsed : FileContent) (bpf : BpfSetup) (events : List StartEvent) : MainState :=
  match (mainParsed ed sha256 keys o verified parsed).phase with
  | .populateMain _ => if bpf = .attached then .started (run (StartUp.step o) .start events) else .ended
  | _ => .ended

end

/-- The file cannot be opened or read as ELF, or its `.sentinel` is too short for a header or has
    another header than a policy's. -/
inductive MalformedPolicy : FileContent → Prop
  | unopenable : MalformedPolicy .unopenable
  | notElf : MalformedPolicy .notElf
  | noNames {img : ElfImage} (hnames : img.hasShstrtab = false) : MalformedPolicy (.elf img)
  | short {img : ElfImage} {data : ElfData} (hdata : img.lastData (ascii ".sentinel") = some data)
      (hsize : data.size < 8) : MalformedPolicy (.elf img)
  | magic {img : ElfImage} {buf : List U8} (hdata : img.lastData (ascii ".sentinel") = some (.bytes buf))
      (hmagic : halfAt buf 0 ≠ sentinelPolicyMagic) : MalformedPolicy (.elf img)
  | version {img : ElfImage} {buf : List U8} (hdata : img.lastData (ascii ".sentinel") = some (.bytes buf))
      (hversion : halfAt buf 4 ≠ sentinelPolicyVersion) : MalformedPolicy (.elf img)

theorem parseSentinelSection_header {maxEntries : Nat} {img : ElfImage} {buf : List U8}
    (hdata : img.lastData (ascii ".sentinel") = some (.bytes buf))
    (hheader : halfAt buf 0 ≠ sentinelPolicyMagic ∨ halfAt buf 4 ≠ sentinelPolicyVersion) :
    parseSentinelSection maxEntries (.elf img) = some ⟨0, [], img.loadBase⟩ := by
  have hbuf : (parsedSections img).sentinel = buf := by rw [parsedSections, hdata, ElfData.optional]
  have hread : (ElfData.bytes buf).hasBuf = true := rfl
  rw [parseSentinelSection]
  simp only [hdata, hbuf, hread, not_true_eq_false, if_false, if_pos hheader, ite_self]

/-- **No refusal but the open's is an error.** What else is malformed counts 0 entries. -/
theorem MalformedPolicy.count_eq_zero {c : FileContent} (h : MalformedPolicy c) (hopen : c ≠ .unopenable)
    (maxEntries : Nat) : ∃ p, parseSentinelSection maxEntries c = some p ∧ p.count = 0 := by
  cases h with
  | unopenable => exact absurd rfl hopen
  | notElf => exact ⟨_, rfl, rfl⟩
  | @noNames img hnames =>
    refine ⟨⟨0, [], img.loadBase⟩, ?_, rfl⟩
    simp only [parseSentinelSection, hnames, Bool.false_eq_true, not_false_eq_true, if_true]
  | @short img data hdata hsize =>
    refine ⟨⟨0, [], img.loadBase⟩, ?_, rfl⟩
    simp only [parseSentinelSection, hdata, if_pos hsize, ite_self]
  | magic hdata hmagic => exact ⟨_, parseSentinelSection_header hdata (Or.inl hmagic), rfl⟩
  | version hdata hversion => exact ⟨_, parseSentinelSection_header hdata (Or.inr hversion), rfl⟩

section
variable {ed : SignatureScheme} {sha256 : List U8 → List U8} {keys : KeyStore ed.PubKey} {o : StartOptions}
  {verified parsed : FileContent}

theorem mainParsed_phase (haccept : verifySignature ed sha256 keys verified = true) {p : PolicyParse}
    (hparse : parseSentinelSection maxPolicyEntries parsed = some p) :
    (mainParsed ed sha256 keys o verified parsed).phase = if p.count < 0 then .stopped else .populateMain p := by
  simp only [mainParsed, run_cons, run_nil, LoadState.step, LoadState.next, LoadState.start, haccept, if_true, hparse]
  split <;> rfl

theorem mainRun_forked (haccept : verifySignature ed sha256 keys verified = true) {p : PolicyParse}
    (hparse : parseSentinelSection maxPolicyEntries parsed = some p) (hcount : 0 ≤ p.count) (pid : U32) :
    (mainRun ed sha256 keys o verified parsed .attached [.cgroupStat none false, .forked (some pid)]).HasChild := by
  have hphase : (mainParsed ed sha256 keys o verified parsed).phase = .populateMain p := by
    rw [mainParsed_phase haccept hparse, if_neg (Int.not_lt.mpr hcount)]
  rw [mainRun, hphase]
  exact ChildStatus.noConfusion

theorem mainRun_ended (haccept : verifySignature ed sha256 keys verified = true) {p : PolicyParse}
    (hparse : parseSentinelSection maxPolicyEntries parsed = some p) (hcount : p.count < 0) (bpf : BpfSetup)
    (events : List StartEvent) : mainRun ed sha256 keys o verified parsed bpf events = .ended := by
  have hphase : (mainParsed ed sha256 keys o verified parsed).phase = .stopped := by
    rw [mainParsed_phase haccept hparse, if_pos hcount]
  rw [mainRun, hphase]

end

/-- **A malformed policy stops the loader, exactly when the file cannot be opened.** Behind an
    accepted binary, what is malformed and can be opened is parsed as no entries, and the child is
    forked. -/
theorem malformed_policy_stops_iff (ed : SignatureScheme) (sha256 : List U8 → List U8) (keys : KeyStore ed.PubKey)
    (verified parsed : FileContent) (haccept : verifySignature ed sha256 keys verified = true)
    (hmalformed : MalformedPolicy parsed) :
    (((∃ p, parseSentinelSection maxPolicyEntries parsed = some p ∧ p.count < 0) ∧
        ∀ o bpf events, ¬ (mainRun ed sha256 keys o verified parsed bpf events).HasChild) ↔ parsed = .unopenable) ∧
      (parsed ≠ .unopenable → ∀ o pid,
        (mainRun ed sha256 keys o verified parsed .attached [.cgroupStat none false, .forked (some pid)]).HasChild) := by
  refine ⟨⟨?_, ?_⟩, ?_⟩
  · intro h
    obtain ⟨⟨p, hparse, hneg⟩, -⟩ := h
    by_contra hopen
    obtain ⟨q, hq, hzero⟩ := hmalformed.count_eq_zero hopen maxPolicyEntries
    rw [hparse] at hq
    rw [Option.some.inj hq, hzero] at hneg
    exact absurd hneg (Int.lt_irrefl 0)
  · intro hclosed
    have hparse : parseSentinelSection maxPolicyEntries parsed = some ⟨-1, [], 0⟩ := by
      rw [hclosed]
      rfl
    refine ⟨⟨_, hparse, by decide⟩, ?_⟩
    intro o bpf events
    rw [mainRun_ended haccept hparse (by decide)]
    exact id
  · intro hopen o pid
    obtain ⟨q, hq, hzero⟩ := hmalformed.count_eq_zero hopen maxPolicyEntries
    exact mainRun_forked haccept hq (Int.le_of_eq hzero.symm) pid

theorem unlinked_policy_stops :
    ∃ p, parseSentinelSection maxPolicyEntries .unopenable = some p ∧ p.count < 0 :=
  ((malformed_policy_stops_iff copyScheme (fitTo 32) oneKey (.elf (signedImage [0x90] [1, 2])) .unopenable
    (by decide +kernel) .unopenable).1.mpr rfl).1

/-- A policy with one entry, of the version before. -/
def staleVersionPolicy : List U8 :=
  [0x54, 0x4e, 0x45, 0x53, 1, 0, 0, 0] ++ [0, 0x10, 0, 0, 0, 0, 0, 0] ++ List.replicate 16 0

/-- A binary signed with such a policy is accepted, its policy is no error, and its child runs. -/
theorem stale_version_starts :
    verifySignature copyScheme (fitTo 32) oneKey (.elf (signedImage [0x90] staleVersionPolicy)) = true ∧
      halfAt staleVersionPolicy 4 ≠ sentinelPolicyVersion ∧
      parseSentinelSection maxPolicyEntries (.elf (signedImage [0x90] staleVersionPolicy)) = some ⟨0, [], 0⟩ ∧
      (mainRun copyScheme (fitTo 32) oneKey ⟨false, false, false⟩ (.elf (signedImage [0x90] staleVersionPolicy))
        (.elf (signedImage [0x90] staleVersionPolicy)) .attached [.cgroupStat none false, .forked (some 7)]).HasChild := by
  have haccept : verifySignature copyScheme (fitTo 32) oneKey (.elf (signedImage [0x90] staleVersionPolicy)) = true := by
    decide +kernel
  have hparse : parseSentinelSection maxPolicyEntries (.elf (signedImage [0x90] staleVersionPolicy)) =
      some ⟨0, [], 0⟩ := by
    decide +kernel
  exact ⟨haccept, by decide +kernel, hparse, mainRun_forked haccept hparse (Int.le_refl 0) 7⟩

end SentinelStack.Cc
