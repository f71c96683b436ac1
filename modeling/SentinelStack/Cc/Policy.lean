import SentinelStack.Cc.Shared
import SentinelStack.Cc.Signature

/- The policy sections of a binary as the loader parses them:
   `parse_sentinel_section`, `parse_sentinel_imports` and `parse_sentinel_cfi`.

   Main result: `parsed_iff_duplicates_agree` — of an accepted image the parsers
   read the bytes that were hashed if and only if, of `.sentinel_imports` and of
   `.sentinel_cfi`, the first section of the name holds the bytes of the last. -/
namespace SentinelStack.Cc
open SentinelStack.Lib

def maxPolicyEntries : Nat := 4096

def sentinelPolicyMagic : U64 := 0x53454E54

def sentinelPolicyVersion : U64 := 2

/-- The bytes of the three policy sections. -/
structure PolicySections where
  sentinel : List U8
  sentinelImports : List U8
  sentinelCfi : List U8
  deriving DecidableEq, Repr

/-- What the parsers take the policy from: `parse_sentinel_section` keeps the last section of its
    name, the other two stop at the first. -/
def parsedSections (img : ElfImage) : PolicySections where
  sentinel := ElfData.optional (img.lastData (ascii ".sentinel"))
  sentinelImports := ElfData.optional (img.firstData (ascii ".sentinel_imports"))
  sentinelCfi := ElfData.optional (img.firstData (ascii ".sentinel_cfi"))

/-- The records of `size` bytes the parsers visit in a buffer; they count them in an `int`. -/
def records (size : Nat) (buf : List U8) : List (List U8) :=
  (List.range (intOfSize (buf.length / size)).toNat).map fun i => (buf.drop (i * size)).take size

def wordAt (buf : List U8) (offset : Nat) : U64 := leWord ((buf.drop offset).take 8)

def halfAt (buf : List U8) (offset : Nat) : U64 := leWord ((buf.drop offset).take 4)

/-- `struct sentinel_policy_entry`; the syscall number is stored plus one, 0 for any. -/
structure PolicyEntry where
  siteAddr : U64
  funcAddr : U64
  syscallNr : Int
  deriving DecidableEq, Repr

def PolicyEntry.ofBytes (buf : List U8) : PolicyEntry := ⟨wordAt buf 0, wordAt buf 8, (wordAt buf 16).toInt⟩

/-- A site with its decoded syscall number, -1 for any. -/
structure PolicySite where
  site : U64
  nr : Int
  deriving DecidableEq, Repr

def PolicyEntry.decode (e : PolicyEntry) : PolicySite := ⟨e.siteAddr, if e.syscallNr > 0 then e.syscallNr - 1 else -1⟩

/-- The result of `parse_sentinel_section`: its return value, the sites and the load base. -/
structure PolicyParse where
  count : Int
  sites : List PolicySite
  loadBase : U64
  deriving DecidableEq, Repr

/-- The entries after the header: null sites are skipped, and no more than `maxEntries` taken. -/
def sentinelSites (maxEntries : Nat) (buf : List U8) : List PolicySite :=
  ((((records 24 (buf.drop 8)).map PolicyEntry.ofBytes).filter (·.siteAddr ≠ 0)).take maxEntries).map PolicyEntry.decode

/-- `parse_sentinel_section`; `none` when it reads through a missing buffer. -/
def parseSentinelSection (maxEntries : Nat) : FileContent → Option PolicyParse
  | .unopenable => some ⟨-1, [], 0⟩
  | .notElf => some ⟨0, [], 0⟩
  | .elf img =>
    if ¬ img.hasShstrtab then some ⟨0, [], img.loadBase⟩
    else
      match img.lastData (ascii ".sentinel") with
      | none => some ⟨0, [], img.loadBase⟩
      | some data =>
        if data.size < 8 then some ⟨0, [], img.loadBase⟩
        else if ¬ data.hasBuf then none
        else
          let buf := (parsedSections img).sentinel
          if halfAt buf 0 ≠ sentinelPolicyMagic ∨ halfAt buf 4 ≠ sentinelPolicyVersion then
            some ⟨0, [], img.loadBase⟩
          else
            let sites := sentinelSites maxEntries buf
            some ⟨sites.length, sites, img.loadBase⟩

/-- What a call on an ELF image can return. -/
theorem parseSentinelSection_elf_cases {maxEntries : Nat} {img : ElfImage} {p : PolicyParse}
    (h : parseSentinelSection maxEntries (.elf img) = some p) :
    p = ⟨0, [], img.loadBase⟩ ∨
      ∃ sites, sites = sentinelSites maxEntries (parsedSections img).sentinel ∧
        p = ⟨sites.length, sites, img.loadBase⟩ := by
  rw [parseSentinelSection] at h
  dsimp only at h
  repeat' split at h
  all_goals cases h
  all_goals first | exact Or.inl rfl | exact Or.inr ⟨_, rfl, rfl⟩

/-- A call stores no site, or those of a section, which it counts. -/
theorem parseSentinelSection_cases {maxEntries : Nat} {c : FileContent} {p : PolicyParse}
    (h : parseSentinelSection maxEntries c = some p) :
    p.sites = [] ∨ ∃ buf, p.sites = sentinelSites maxEntries buf ∧ p.count = p.sites.length := by
  cases c with
  | unopenable =>
    cases h
    exact Or.inl rfl
  | notElf =>
    cases h
    exact Or.inl rfl
  | elf img =>
    rcases parseSentinelSection_elf_cases h with rfl | ⟨sites, hsites, rfl⟩
    · exact Or.inl rfl
    · exact Or.inr ⟨_, hsites, rfl⟩

theorem parseSentinelSection_loadBase {maxEntries : Nat} {img : ElfImage} {p : PolicyParse}
    (h : parseSentinelSection maxEntries (.elf img) = some p) : p.loadBase = img.loadBase := by
  rcases parseSentinelSection_elf_cases h with rfl | ⟨sites, -, rfl⟩
  · rfl
  · rfl

/-- What `parse_sentinel_section` returns is the number of sites it stored, if it stored any. -/
theorem parseSentinelSection_count {maxEntries : Nat} {c : FileContent} {p : PolicyParse}
    (h : parseSentinelSection maxEntries c = some p) (hsites : p.sites ≠ []) : p.count = p.sites.length := by
  obtain ⟨buf, -, hcount⟩ := (parseSentinelSection_cases h).resolve_left hsites
  exact hcount

/-- The names of an import list, and whether `strlen` ran past its end. -/
structure ImportScan where
  names : List CStr
  overrun : Bool
  deriving DecidableEq, Repr

/-- The loop over the blob: `slots` names can still be stored. The bytes left bound the fuel. -/
def importLoop : Nat → Nat → List U8 → ImportScan
  | fuel + 1, slots + 1, b :: rest =>
    if b = 0 then importLoop fuel (slots + 1) rest
    else
      let name := cstrOf (b :: rest)
      let scan := importLoop fuel slots ((b :: rest).drop (name.length + 1))
      ⟨name :: scan.names, scan.overrun || name.length = (b :: rest).length⟩
  | _, _, _ => ⟨[], false⟩

/-- As many names as there are NULs have room. They are counted in an `int`: for a negative count
    `calloc` fails, and no name is returned. -/
def scanImports (blob : List U8) : ImportScan := importLoop blob.length (intOfSize (blob.count 0)).toNat blob

def parseSentinelImports : FileContent → ImportScan
  | .elf img =>
    if ¬ img.hasShstrtab then ⟨[], false⟩ else scanImports (parsedSections img).sentinelImports
  | _ => ⟨[], false⟩

/-- `struct sentinel_cfi_entry`. -/
structure CfiEntry where
  siteAddr : U64
  funcAddr : U64
  deriving DecidableEq, Repr

def cfiRecords (maxEntries : Nat) (buf : List U8) : List CfiEntry :=
  (((records 16 buf).map fun r => CfiEntry.mk (wordAt r 0) (wordAt r 8)).filter (·.siteAddr ≠ 0)).take maxEntries

def parseSentinelCfi (maxEntries : Nat) : FileContent → List CfiEntry
  | .elf img =>
    if ¬ img.hasShstrtab then [] else cfiRecords maxEntries (parsedSections img).sentinelCfi
  | _ => []

/-! What is parsed against what is hashed. -/

def DigestParts.policy (d : DigestParts) : PolicySections := ⟨d.sentinel, d.sentinelImports, d.sentinelCfi⟩

/-- The first and the last section of the name hold the same bytes, no bytes counting as empty. -/
def FirstIsLast (img : ElfImage) (name : CStr) : Prop :=
  ElfData.optional (img.firstData name) = ElfData.optional (img.lastData name)

theorem digested_optional {data : Option ElfData} {buf : List U8} (h : data.bind (·.digested) = some buf) :
    buf = ElfData.optional data := by
  match data, h with
  | some (.bytes b), h => exact (Option.some.inj h).symm
  | some (.noBuf 0), h => exact (Option.some.inj h).symm

/-- The policy that is hashed comes from the last section of each name. -/
theorem fedToDigest_policy {img : ElfImage} {d : DigestParts} (h : fedToDigest img (ascii ".sentinel") = some d) :
    d.policy = ⟨ElfData.optional (img.lastData (ascii ".sentinel")),
      ElfData.optional (img.lastData (ascii ".sentinel_imports")),
      ElfData.optional (img.lastData (ascii ".sentinel_cfi"))⟩ := by
  unfold fedToDigest at h
  split at h
  next text policy htext hpolicy =>
    rw [← Option.some.inj h, DigestParts.policy, digested_optional hpolicy]
  · cases h

/-- **Parsed is hashed, exactly without disagreeing duplicates.** -/
theorem parsed_iff_duplicates_agree (ed : SignatureScheme) (sha256 : List U8 → List U8) (keys : KeyStore ed.PubKey)
    (img : ElfImage) (haccept : verifySignature ed sha256 keys (.elf img) = true) :
    ∃ d, fedToDigest img (ascii ".sentinel") = some d ∧
      (parsedSections img = d.policy ↔
        FirstIsLast img (ascii ".sentinel_imports") ∧ FirstIsLast img (ascii ".sentinel_cfi")) := by
  obtain ⟨-, pub, -, -, d, sig, hd, -, -⟩ := verifySignature_iff.mp haccept
  refine ⟨d, hd, ?_⟩
  rw [fedToDigest_policy hd, parsedSections, PolicySections.mk.injEq]
  exact ⟨fun h => h.2, fun h => ⟨rfl, h⟩⟩

def cfiRecordBytes (site func : U8) : List U8 := [0, site, 0, 0, 0, 0, 0, 0, 0, func, 0, 0, 0, 0, 0, 0]

/-- A signed image, with a `.sentinel_cfi` put in front of the one that was signed. -/
def doubledCfi : ElfImage where
  phdrs := []
  hasShstrtab := true
  sections := [.ofBytes (ascii ".text") [0x90], .ofBytes (ascii ".sentinel") [1, 2],
    .ofBytes (ascii ".sentinel_cfi") (cfiRecordBytes 0x10 0x10),
    .ofBytes (ascii ".sentinel_cfi") (cfiRecordBytes 0x20 0x20),
    .ofBytes (ascii ".signature") (fitTo 64 ([0x90, 1, 2] ++ cfiRecordBytes 0x20 0x20))]

/-- The loader accepts it and parses the record that was not hashed. -/
theorem unsigned_cfi_parsed :
    verifySignature copyScheme (fitTo 32) oneKey (.elf doubledCfi) = true ∧
      fedToDigest doubledCfi (ascii ".sentinel") = some ⟨[0x90], [1, 2], cfiRecordBytes 0x20 0x20, []⟩ ∧
      parsedSections doubledCfi ≠ DigestParts.policy ⟨[0x90], [1, 2], cfiRecordBytes 0x20 0x20, []⟩ ∧
      parseSentinelCfi maxPolicyEntries (.elf doubledCfi) = [⟨0x1000, 0x1000⟩] := by
  decide +kernel

theorem parsed_without_duplicates :
    ∃ d, fedToDigest (instrumentedImage (fitTo 64 [0x90, 1, 2])) (ascii ".sentinel") = some d ∧
      parsedSections (instrumentedImage (fitTo 64 [0x90, 1, 2])) = d.policy := by
  obtain ⟨d, hd, hiff⟩ := parsed_iff_duplicates_agree copyScheme (fitTo 32) oneKey
    (instrumentedImage (fitTo 64 [0x90, 1, 2])) (by decide +kernel)
  refine ⟨d, hd, hiff.mpr ⟨?_, ?_⟩⟩
  · unfold FirstIsLast
    decide +kernel
  · unfold FirstIsLast
    decide +kernel

end SentinelStack.Cc
