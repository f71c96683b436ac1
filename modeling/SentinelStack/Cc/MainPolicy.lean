import SentinelStack.Cc.Check
import SentinelStack.Cc.Provenance
import SentinelStack.Lib.BoundedMap

/- The main policy map: what the population loop of `main` and the hot reload
   leave in it, and what the number check of `sentinel_check` makes of that.

   Main results: `reload_is_fresh_iff` — a hot reload leaves the map a fresh
   start would install if and only if no site offset of the old policy is gone
   from the new one; `policy_install_exact` — of a section with fewer than 2^31
   records the map holds exactly the sites, and admits at each the numbers of its
   last entry. -/
namespace SentinelStack.Cc
open SentinelStack.Lib

/-- The main policy map: site offset → policy value, `max_entries` 4096. -/
abbrev PolicyMap : Type := BoundedMap U64 U64 4096

/-- The map the loader has built: created empty, then every entry written in order. -/
def LoadState.mainPolicy (s : LoadState) : PolicyMap := BoundedMap.empty.putAll s.mainWrites

/-- The map the population loop leaves for a parsed section. -/
def PolicyParse.installed (p : PolicyParse) : PolicyMap := BoundedMap.empty.putAll p.entries

/-- The keys a parsed section asks for. -/
def PolicyParse.offsets (p : PolicyParse) : List U64 := p.sites.map fun s => s.site - p.loadBase

theorem PolicyParse.keys_entries (p : PolicyParse) : p.entries.map Prod.fst = p.offsets := by
  simp [PolicyParse.entries, PolicyParse.offsets]

/-- `offsets[]` has room for `max_entries` sites. -/
theorem parseSentinelSection_length {maxEntries : Nat} {c : FileContent} {p : PolicyParse}
    (h : parseSentinelSection maxEntries c = some p) : p.sites.length ≤ maxEntries := by
  rcases parseSentinelSection_cases h with hnone | ⟨buf, hsites, -⟩
  · rw [hnone]
    exact Nat.zero_le _
  · rw [hsites]
    simp [sentinelSites]

section
variable {c : FileContent} {p : PolicyParse} (h : parseSentinelSection maxPolicyEntries c = some p)
include h

theorem entries_fit : p.entries.length ≤ 4096 := by
  rw [PolicyParse.entries, List.length_map]
  exact parseSentinelSection_length h

/-- No update of the population loop is refused: the last entry for an offset gives its value. -/
theorem lookup_installed (o : U64) :
    p.installed.lookup o = (p.sites.filter fun s => s.site - p.loadBase = o).getLast?.map fun s => policyValue s.nr := by
  rw [PolicyParse.installed, BoundedMap.lookup_putAll_empty (entries_fit h), PolicyParse.entries, lastFor_map]

theorem lookup_installed_isSome (o : U64) : (p.installed.lookup o).isSome ↔ o ∈ p.offsets := by
  rw [PolicyParse.installed, BoundedMap.lookup_putAll_empty (entries_fit h), ← not_iff_not, Option.not_isSome_iff_eq_none,
    lastFor_eq_none, ← p.keys_entries]
  simp only [List.mem_map, not_exists, not_and]

end

/-! The hot reload. -/

section
variable {ed : SignatureScheme} {sha256 : List U8 → List U8} {keys : KeyStore ed.PubKey} {opts : LoaderOptions}
  {s : LoadState} {p : PolicyParse}

/-- What the loader has at the end of its population loop. -/
theorem mainPolicy_populated (hphase : s.phase = .populateMain p) (hfresh : s.mainWrites = []) :
    (s.next ed sha256 keys opts).mainPolicy = p.installed := by
  have hnext : (s.next ed sha256 keys opts).mainWrites = p.entries := by
    simp [LoadState.next, hphase, hfresh]
  rw [LoadState.mainPolicy, hnext]
  rfl

/-- The reload loop writes over the map as it is. -/
theorem mainPolicy_reloaded (hphase : s.phase = .running) (haudit : opts.audit)
    (hparse : parseSentinelSection maxPolicyEntries s.path = some p) (hcount : p.count > 0) :
    (s.reload opts).mainPolicy = s.mainPolicy.putAll p.entries := by
  have hreload : (s.reload opts).mainWrites = s.mainWrites ++ p.entries := by
    simp [LoadState.reload, hphase, haudit, hparse, hcount]
  rw [LoadState.mainPolicy, hreload, BoundedMap.putAll_append]
  rfl

end

/-- **When a hot reload equals a fresh load.** A running loader that installed the policy of `c₀`
    at its start reloads the policy of the file now at the path; a fresh loader populates its map
    with that same policy. The two maps agree if and only if each offset of the old policy is one
    of the new: nothing is removed from the map. -/
theorem reload_is_fresh_iff {ed : SignatureScheme} {sha256 : List U8 → List U8} {keys : KeyStore ed.PubKey}
    {opts opts' : LoaderOptions} {c₀ : FileContent} {p₀ p₁ : PolicyParse} {s fresh : LoadState}
    (h₀ : parseSentinelSection maxPolicyEntries c₀ = some p₀) (hrunning : s.phase = .running) (haudit : opts.audit)
    (hloaded : s.mainWrites = p₀.entries) (h₁ : parseSentinelSection maxPolicyEntries s.path = some p₁)
    (hcount : p₁.count > 0) (hphase : fresh.phase = .populateMain p₁) (hfresh : fresh.mainWrites = []) :
    (∀ k, (s.reload opts).mainPolicy.lookup k = (fresh.next ed sha256 keys opts').mainPolicy.lookup k) ↔
      p₀.offsets ⊆ p₁.offsets := by
  have hold : s.mainPolicy = p₀.installed := by rw [LoadState.mainPolicy, hloaded, PolicyParse.installed]
  rw [mainPolicy_reloaded hrunning haudit h₁ hcount, mainPolicy_populated hphase hfresh, hold]
  calc (∀ k, (p₀.installed.putAll p₁.entries).lookup k = p₁.installed.lookup k)
      ↔ ∀ k, (p₀.installed.lookup k).isSome → k ∈ p₁.entries.map Prod.fst :=
        BoundedMap.lookup_putAll_eq_fresh_iff (entries_fit h₁)
    _ ↔ p₀.offsets ⊆ p₁.offsets := by simp only [lookup_installed_isSome h₀, p₁.keys_entries, List.subset_def]

/-- A binary whose policy is one entry, for any syscall number, at `page * 256`; properly signed. -/
def signedBinary (page : U8) : FileContent :=
  .elf ⟨[], true, [.ofBytes (ascii ".text") [0x90], .ofBytes (ascii ".sentinel") (onePolicyEntry page),
    .ofBytes (ascii ".signature") (fitTo 64 (fitTo 32 (0x90 :: onePolicyEntry page)))]⟩

/-- The loader on the binary with its entry at 0x1000, running, when the file at the path has become `content`. -/
def runningThen (content : FileContent) : LoadState :=
  run (LoadState.step copyScheme (fitTo 32) oneKey auditOnly) (.start (signedBinary 0x10))
    [.next, .next, .next, .next, .next, .next, .replace content]

/-- A loader started on `content`, about to populate its map. -/
def startedOn (content : FileContent) : LoadState :=
  run (LoadState.step copyScheme (fitTo 32) oneKey auditOnly) (.start content) [.next, .next]

/-- The site 0x1000 is gone from the new policy and stays allowed after the reload. -/
theorem removed_site_survives :
    ((runningThen (signedBinary 0x20)).reload auditOnly).mainPolicy.lookup 0x1000 = some 1 ∧
      ((startedOn (signedBinary 0x20)).next copyScheme (fitTo 32) oneKey auditOnly).mainPolicy.lookup 0x1000 = none ∧
      ((startedOn (signedBinary 0x20)).next copyScheme (fitTo 32) oneKey auditOnly).mainPolicy.lookup 0x2000 = some 1 := by
  decide +kernel

theorem reload_of_same_policy :
    ((runningThen (signedBinary 0x10)).reload auditOnly).mainPolicy.lookup =
      ((startedOn (signedBinary 0x10)).next copyScheme (fitTo 32) oneKey auditOnly).mainPolicy.lookup := by
  have hparse : parseSentinelSection maxPolicyEntries (signedBinary 0x10) = some ⟨1, [⟨0x1000, -1⟩], 0⟩ := by
    decide +kernel
  funext k
  exact (reload_is_fresh_iff hparse (by decide +kernel) rfl (by decide +kernel) hparse (by decide) (by decide +kernel)
    (by decide +kernel)).mpr (List.Subset.refl _) k

/-! The installed policy, entry by entry. -/

/-- The entries a `.sentinel` section holds, by its bytes alone. -/
def sectionEntries (buf : List U8) : List PolicyEntry :=
  (List.range ((buf.length - 8) / 24)).map fun i => .ofBytes (((buf.drop 8).drop (i * 24)).take 24)

/-- The entries that name a site. -/
def siteEntries (buf : List U8) : List PolicyEntry := (sectionEntries buf).filter (·.siteAddr ≠ 0)

/-- The number check of `sentinel_check` lets `syscallNr` through at `offset`. -/
def PolicyMap.Admits (m : PolicyMap) (offset : U64) (syscallNr : U32) : Prop :=
  ∃ rule ∈ m.lookup offset, ¬ NrMismatch rule syscallNr

/-- The value for a number binds its low 32 bits; the wildcard binds nothing. -/
theorem not_nrMismatch_policyValue (nr : Int) (n : U32) :
    ¬ NrMismatch (policyValue nr) n ↔ nr < 0 ∨ BitVec.ofInt 32 nr = n := by
  by_cases hnr : nr ≥ 0
  · have hflag : (policyFlagCheckNr ||| (BitVec.ofInt 32 nr).setWidth 64) &&& policyFlagCheckNr ≠ 0 := by
      rw [BitVec.and_comm, BitVec.and_or_distrib_left, BitVec.and_self]
      intro h
      exact absurd (BitVec.or_eq_zero_iff.mp h).1 (by decide)
    have hlow : (policyFlagCheckNr ||| (BitVec.ofInt 32 nr).setWidth 64).setWidth 32 = BitVec.ofInt 32 nr := by
      rw [BitVec.setWidth_or, show policyFlagCheckNr.setWidth 32 = 0 by decide, BitVec.setWidth_setWidth_of_le _ (by decide)]
      simp
    simp only [NrMismatch, policyValue, if_pos hnr, hlow, hflag, ne_eq, not_false_eq_true, true_and, not_not]
    exact ⟨Or.inr, fun h => h.resolve_left (by omega)⟩
  · have hwild : (1 : U64) &&& policyFlagCheckNr = 0 := by decide
    simp only [NrMismatch, policyValue, if_neg hnr, hwild, ne_eq, not_true, false_and, not_false_eq_true, true_iff]
    exact .inl (by omega)

/-- An entry admits any number, or the one it stores plus one. -/
theorem not_nrMismatch_decode {e : PolicyEntry} (hnr : e.syscallNr ≤ 2 ^ 32) (n : U32) :
    ¬ NrMismatch (policyValue e.decode.nr) n ↔ e.syscallNr ≤ 0 ∨ e.syscallNr = n.toNat + 1 := by
  rw [not_nrMismatch_policyValue, PolicyEntry.decode]
  have hn := n.isLt
  by_cases hpos : e.syscallNr > 0
  · have hlow : BitVec.ofInt 32 (e.syscallNr - 1) = n ↔ e.syscallNr = n.toNat + 1 := by
      rw [← BitVec.toNat_inj, BitVec.toNat_ofInt]
      omega
    simp only [if_pos hpos, hlow]
    omega
  · simp only [if_neg hpos]
    omega

/-- While the records fit an `int`, and the sites the array, every site is parsed. -/
theorem sentinelSites_eq {maxEntries : Nat} {buf : List U8} (hrecords : (buf.length - 8) / 24 < 2 ^ 31)
    (hcount : (siteEntries buf).length ≤ maxEntries) :
    sentinelSites maxEntries buf = (siteEntries buf).map PolicyEntry.decode := by
  have hall : (records 24 (buf.drop 8)).map PolicyEntry.ofBytes = sectionEntries buf := by
    rw [records, List.length_drop, intOfSize_of_lt hrecords, Int.toNat_natCast, List.map_map]
    rfl
  rw [sentinelSites, hall]
  show ((siteEntries buf).take maxEntries).map PolicyEntry.decode = _
  rw [List.take_of_length_le hcount]

/-- A section with the right magic and version is parsed as a whole. -/
theorem parseSentinelSection_elf (maxEntries : Nat) {img : ElfImage} {buf : List U8} (hnames : img.hasShstrtab)
    (hdata : img.lastData (ascii ".sentinel") = some (.bytes buf)) (hlen : 8 ≤ buf.length)
    (hmagic : halfAt buf 0 = sentinelPolicyMagic) (hversion : halfAt buf 4 = sentinelPolicyVersion) :
    parseSentinelSection maxEntries (.elf img) =
      some ⟨(sentinelSites maxEntries buf).length, sentinelSites maxEntries buf, img.loadBase⟩ := by
  have hsize : ¬ (ElfData.bytes buf).size < 8 := by
    rw [ElfData.size]
    omega
  have hbuf : (parsedSections img).sentinel = buf := by rw [parsedSections, hdata, ElfData.optional]
  simp [parseSentinelSection, hnames, hdata, hsize, ElfData.hasBuf, hbuf, hmagic, hversion]

/-- **The installed policy is the section's.** For every section with the right magic and version, at most
    4096 sites, syscall numbers up to 2^32 and fewer than 2^31 records: the map holds exactly the
    sites' offsets, and admits at each the numbers of the last entry for it. -/
theorem policy_install_exact {img : ElfImage} {buf : List U8} (hnames : img.hasShstrtab)
    (hdata : img.lastData (ascii ".sentinel") = some (.bytes buf)) (hlen : 8 ≤ buf.length)
    (hmagic : halfAt buf 0 = sentinelPolicyMagic) (hversion : halfAt buf 4 = sentinelPolicyVersion)
    (hcount : (siteEntries buf).length ≤ maxPolicyEntries) (hnr : ∀ e ∈ sectionEntries buf, e.syscallNr ≤ 2 ^ 32)
    (hrecords : (buf.length - 8) / 24 < 2 ^ 31) :
    ∃ p, parseSentinelSection maxPolicyEntries (.elf img) = some p ∧ ∀ o,
      ((p.installed.lookup o).isSome ↔ ∃ e ∈ siteEntries buf, e.siteAddr - img.loadBase = o) ∧
      ∀ n, p.installed.Admits o n ↔
        ∃ e, ((siteEntries buf).filter fun e => e.siteAddr - img.loadBase = o).getLast? = some e ∧
          (e.syscallNr ≤ 0 ∨ e.syscallNr = n.toNat + 1) := by
  have hparse := parseSentinelSection_elf maxPolicyEntries hnames hdata hlen hmagic hversion
  rw [sentinelSites_eq hrecords hcount] at hparse
  refine ⟨_, hparse, fun o => ⟨?_, fun n => ?_⟩⟩
  · rw [lookup_installed_isSome hparse, PolicyParse.offsets]
    simp only [List.map_map, List.mem_map]
    rfl
  · -- the last parsed site for the offset comes from the last entry for it
    rw [PolicyMap.Admits, lookup_installed hparse, List.filter_map, List.getLast?_map, Option.map_map]
    show (∃ rule ∈ ((siteEntries buf).filter fun e => e.siteAddr - img.loadBase = o).getLast?.map
      fun e => policyValue e.decode.nr, ¬ NrMismatch rule n) ↔ _
    simp only [Option.mem_def, Option.map_eq_some_iff, exists_exists_and_eq_and]
    apply exists_congr
    intro e
    apply and_congr_right
    intro hlast
    have hmem : e ∈ siteEntries buf := List.mem_of_mem_filter (List.mem_of_getLast? hlast)
    exact not_nrMismatch_decode (hnr e (List.mem_of_mem_filter hmem)) n

/-- A section with one site, at 0x1000, and `n` null records after it. -/
def paddedSection (n : Nat) : List U8 := onePolicyEntry 0x10 ++ List.replicate (24 * n) 0

/-- An image with that section. -/
def paddedImage (n : Nat) : ElfImage := ⟨[], true, [.ofBytes (ascii ".sentinel") (paddedSection n)]⟩

theorem lastData_paddedImage (n : Nat) :
    (paddedImage n).lastData (ascii ".sentinel") = some (.bytes (paddedSection n)) := by
  simp [ElfImage.lastData, ElfImage.named, paddedImage, Section.ofBytes]

theorem length_paddedSection (n : Nat) : (paddedSection n).length = 8 + 24 * (n + 1) := by
  rw [paddedSection, List.length_append, List.length_replicate, show (onePolicyEntry 0x10).length = 32 from rfl]
  omega

theorem halfAt_append {buf : List U8} {offset : Nat} (h : offset + 4 ≤ buf.length) (rest : List U8) :
    halfAt (buf ++ rest) offset = halfAt buf offset := by
  rw [halfAt, halfAt, List.drop_append_of_le_length (by omega), List.take_append_of_le_length]
  rw [List.length_drop]
  omega

theorem header_paddedSection (n : Nat) :
    halfAt (paddedSection n) 0 = sentinelPolicyMagic ∧ halfAt (paddedSection n) 4 = sentinelPolicyVersion := by
  rw [paddedSection, halfAt_append (by decide), halfAt_append (by decide)]
  decide

theorem sectionEntries_padded (n : Nat) :
    sectionEntries (paddedSection n) = ⟨0x1000, 0, 0⟩ :: List.replicate n ⟨0, 0, 0⟩ := by
  have hcount : ((paddedSection n).length - 8) / 24 = n + 1 := by
    rw [length_paddedSection]
    omega
  rw [sectionEntries, hcount, List.range_succ_eq_map, List.map_cons, List.map_map, List.cons.injEq]
  refine ⟨?_, List.eq_replicate_iff.mpr ⟨by simp, ?_⟩⟩
  · rw [paddedSection, List.drop_drop, List.drop_append_of_le_length (by decide), List.take_append_of_le_length (by decide)]
    decide
  intro e he
  obtain ⟨i, hi, rfl⟩ := List.mem_map.mp he
  have hin : i < n := List.mem_range.mp hi
  -- past the first record there is nothing but zeros
  have hzero : ((paddedSection n).drop 8).drop ((i + 1) * 24) = List.replicate (24 * n - 24 * i) 0 := by
    rw [paddedSection, List.drop_drop, List.drop_append, List.drop_eq_nil_of_le, List.nil_append, List.drop_replicate]
    · congr 1
      show 24 * n - (8 + (i + 1) * 24 - 32) = _
      omega
    · show 32 ≤ 8 + (i + 1) * 24
      omega
  rw [Function.comp_apply, Nat.succ_eq_add_one, hzero, List.take_replicate, Nat.min_eq_left (by omega)]
  rfl

/-- With 2^31 records their number is negative in an `int`: no record is visited. -/
theorem sentinelSites_padded {n : Nat} (hn : n + 1 = 2 ^ 31) (maxEntries : Nat) :
    sentinelSites maxEntries (paddedSection n) = [] := by
  have hlen : ((paddedSection n).drop 8).length / 24 = 2 ^ 31 := by
    rw [List.length_drop, length_paddedSection]
    omega
  rw [sentinelSites, records, hlen, show (intOfSize (2 ^ 31)).toNat = 0 by decide]
  simp

/-- A section of 2^31 records is taken for an empty one, whatever sites it names. -/
theorem oversized_section_ignored :
    ¬ ∀ (img : ElfImage) (buf : List U8), img.hasShstrtab → img.lastData (ascii ".sentinel") = some (.bytes buf) →
      8 ≤ buf.length → halfAt buf 0 = sentinelPolicyMagic → halfAt buf 4 = sentinelPolicyVersion →
      (siteEntries buf).length ≤ maxPolicyEntries → (∀ e ∈ sectionEntries buf, e.syscallNr ≤ 2 ^ 32) →
      ∀ p, parseSentinelSection maxPolicyEntries (.elf img) = some p → ∀ o,
        ((p.installed.lookup o).isSome ↔ ∃ e ∈ siteEntries buf, e.siteAddr - img.loadBase = o) := by
  obtain ⟨n, hn⟩ : ∃ n, n + 1 = 2 ^ 31 := ⟨2 ^ 31 - 1, by decide⟩
  intro h
  have hsites : siteEntries (paddedSection n) = [⟨0x1000, 0, 0⟩] := by
    rw [siteEntries, sectionEntries_padded, List.filter_cons_of_pos (by decide)]
    simp
  have hnr : ∀ e ∈ sectionEntries (paddedSection n), e.syscallNr ≤ 2 ^ 32 := by
    intro e he
    rw [sectionEntries_padded] at he
    cases List.mem_cons.mp he with
    | inl heq => rw [heq]; decide
    | inr hzero => rw [List.eq_of_mem_replicate hzero]; decide
  have hlen : 8 ≤ (paddedSection n).length := by
    rw [length_paddedSection]
    omega
  obtain ⟨hmagic, hversion⟩ := header_paddedSection n
  have hparse := parseSentinelSection_elf maxPolicyEntries rfl (lastData_paddedImage n) hlen hmagic hversion
  have hkey := h (paddedImage n) (paddedSection n) rfl (lastData_paddedImage n) hlen hmagic hversion
    (by rw [hsites]; decide) hnr _ hparse 0x1000
  rw [lookup_installed_isSome hparse, PolicyParse.offsets, sentinelSites_padded hn, hsites] at hkey
  exact absurd (hkey.mpr ⟨_, List.mem_cons_self, by simp [paddedImage, ElfImage.loadBase]⟩) List.not_mem_nil

theorem policy_install_exact_one :
    ∃ p, parseSentinelSection maxPolicyEntries (.elf (paddedImage 0)) = some p ∧ (p.installed.lookup 0x1000).isSome ∧
      p.installed.Admits 0x1000 59 := by
  have hsites : siteEntries (paddedSection 0) = [⟨0x1000, 0, 0⟩] := by decide +kernel
  obtain ⟨p, hparse, hexact⟩ := policy_install_exact rfl (lastData_paddedImage 0) (by decide +kernel)
    (header_paddedSection 0).1 (header_paddedSection 0).2 (by decide +kernel) (by decide +kernel) (by decide +kernel)
  refine ⟨p, hparse, (hexact 0x1000).1.mpr ?_, ((hexact 0x1000).2 59).mpr ?_⟩
  · rw [hsites]
    exact ⟨_, List.mem_cons_self, by decide⟩
  · rw [hsites]
    exact ⟨⟨0x1000, 0, 0⟩, by decide +kernel, .inl (by decide)⟩

end SentinelStack.Cc
