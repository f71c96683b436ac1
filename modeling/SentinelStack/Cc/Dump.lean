import SentinelStack.Cc.MainPolicy

/- `sentinel-dump` on the `.sentinel` and the `.sentinel_imports` section, against
   the loader's parsers of them.

   `dump_sentinel` takes the section for an array of entries from its first byte:
   it does not skip the header, nor null sites, and narrows the syscall number to
   an `int`. Main result: `dump_agrees_iff` — it shows what `parse_sentinel_section`
   returns if and only if at least 8 bytes follow the last whole entry, and of the
   8-byte words of each entry the first two are equal and not 0, and the third
   stands for the same number as the word after it.

   `parse_sentinel_imports` has room for as many names as it counted NULs. Main
   result: `imports_agree_iff` — it stays within the section and returns the names
   `dump_imports` prints, if and only if the section ends in a NUL and its NULs,
   counted in an `int`, are as many as its non-empty names at least. Of a name
   without a NUL the loader runs over the end, or drops it (`unterminated_import`). -/
namespace SentinelStack.Cc
open SentinelStack.Lib

/-- `syscall_name`. -/
def syscallName (nr : Int) : Option CStr :=
  ([(0, ascii "read"), (1, ascii "write"), (2, ascii "open"), (3, ascii "close"), (9, ascii "mmap"),
    (10, ascii "mprotect"), (16, ascii "ioctl"), (33, ascii "dup2"), (42, ascii "connect"), (46, ascii "sendmsg"),
    (56, ascii "clone"), (57, ascii "fork"), (59, ascii "execve"), (101, ascii "ptrace"), (157, ascii "prctl"),
    (257, ascii "openat"), (311, ascii "process_vm_writev"), (317, ascii "seccomp"),
    (319, ascii "memfd_create")] : List (Int × CStr)).lookup nr

/-- What is printed of an entry, as JSON or as text; `nr` is `none` for `any`. -/
structure DumpedEntry where
  site : U64
  func : U64
  offset : U64
  nr : Option Int
  name : Option CStr
  deriving DecidableEq, Repr

/-- The number shown: one less than stored, as an `int`, unless that is negative. -/
def shownNr (nrRaw : Int) : Option Int :=
  let nr := if nrRaw > 0 then (BitVec.ofInt 32 (nrRaw - 1)).toInt else -1
  if nr ≥ 0 then some nr else none

def PolicyEntry.dumped (e : PolicyEntry) (textVaddr : U64) : DumpedEntry :=
  ⟨e.siteAddr, e.funcAddr, e.siteAddr - textVaddr, shownNr e.syscallNr, (shownNr e.syscallNr).bind syscallName⟩

/-- `dump_sentinel`: the entries it prints, none for `(empty)`. -/
def dumpSentinel (data : Option ElfData) (textVaddr : U64) : List DumpedEntry :=
  match data with
  | some (.bytes buf) =>
    (List.range (buf.length / 24)).map fun i => (PolicyEntry.ofBytes ((buf.drop (i * 24)).take 24)).dumped textVaddr
  | _ => []

/-- The pair that the loader would return for what is shown. -/
def DumpedEntry.pair (e : DumpedEntry) : PolicySite := ⟨e.site, e.nr.getD (-1)⟩

/-! Both parsers, by words of the section. -/

theorem wordAt_record (buf : List U8) (start : Nat) {k : Nat} (hk : k + 8 ≤ 24) :
    wordAt ((buf.drop start).take 24) k = wordAt buf (start + k) := by
  unfold wordAt
  rw [List.drop_take, List.take_take, List.drop_drop, Nat.min_eq_left (by omega)]

/-- The entry at a byte of the section. -/
def entryAt (buf : List U8) (start : Nat) : PolicyEntry :=
  ⟨wordAt buf start, wordAt buf (start + 8), (wordAt buf (start + 16)).toInt⟩

theorem ofBytes_record (buf : List U8) (start : Nat) :
    PolicyEntry.ofBytes ((buf.drop start).take 24) = entryAt buf start := by
  unfold PolicyEntry.ofBytes entryAt
  rw [wordAt_record buf start (by omega), wordAt_record buf start (by omega), wordAt_record buf start (by omega),
    Nat.add_zero]

theorem dumpSentinel_pairs (buf : List U8) (textVaddr : U64) :
    (dumpSentinel (some (.bytes buf)) textVaddr).map DumpedEntry.pair =
      (List.range (buf.length / 24)).map fun i =>
        ⟨wordAt buf (i * 24), (shownNr (entryAt buf (i * 24)).syscallNr).getD (-1)⟩ := by
  unfold dumpSentinel
  rw [List.map_map]
  refine List.map_congr_left fun i _ => ?_
  show (PolicyEntry.dumped (PolicyEntry.ofBytes ((buf.drop (i * 24)).take 24)) textVaddr).pair = _
  rw [ofBytes_record]
  rfl

theorem records_eq_entryAt (buf : List U8) :
    (records 24 (buf.drop 8)).map PolicyEntry.ofBytes =
      (List.range (intOfSize ((buf.length - 8) / 24)).toNat).map fun i => entryAt buf (8 + i * 24) := by
  unfold records
  rw [List.map_map, List.length_drop]
  refine List.map_congr_left fun i _ => ?_
  show PolicyEntry.ofBytes (((buf.drop 8).drop (i * 24)).take 24) = _
  rw [List.drop_drop, ofBytes_record]

/-- A list computed over a range is what is left of another one after a filter and a cut, if and only
    if nothing was filtered or cut and the elements are the same. -/
theorem map_range_eq_filter_iff {α β : Type*} (f : Nat → β) (g : Nat → α) (keep : α → Bool) (h : α → β) {d n cap : Nat}
    (hn : n ≤ d) :
    (List.range d).map f = ((((List.range n).map g).filter keep).take cap).map h ↔
      n = d ∧ d ≤ cap ∧ ∀ i < d, keep (g i) = true ∧ f i = h (g i) := by
  constructor
  · intro heq
    -- the lengths leave no room for a skipped entry
    have hlen := congrArg List.length heq
    have hfilter := List.length_filter_le keep ((List.range n).map g)
    simp only [List.length_map, List.length_range, List.length_take] at hlen hfilter
    have hnd : n = d := by omega
    subst hnd
    have hall : ((List.range n).map g).filter keep = (List.range n).map g := by
      apply List.filter_eq_self.mpr
      apply List.length_filter_eq_length_iff.mp
      simp only [List.length_map, List.length_range]
      omega
    rw [hall, List.take_of_length_le (by simp only [List.length_map, List.length_range]; omega), List.map_map] at heq
    refine ⟨rfl, by omega, fun i hi => ⟨?_, ?_⟩⟩
    · exact List.filter_eq_self.mp hall (g i) (List.mem_map_of_mem (List.mem_range.mpr hi))
    · exact List.map_inj_left.mp heq i (List.mem_range.mpr hi)
  · intro ⟨hnd, hcap, hall⟩
    subst hnd
    have hkeep : ((List.range n).map g).filter keep = (List.range n).map g := by
      apply List.filter_eq_self.mpr
      intro a ha
      obtain ⟨i, hi, rfl⟩ := List.mem_map.mp ha
      exact (hall i (List.mem_range.mp hi)).1
    rw [hkeep, List.take_of_length_le (by simp only [List.length_map, List.length_range]; omega), List.map_map]
    exact List.map_congr_left fun i hi => (hall i (List.mem_range.mp hi)).2

/-- The `j`-th 8-byte word of a section. -/
def sectionWord (buf : List U8) (j : Nat) : U64 := wordAt buf (8 * j)

/-- The two words, as signed numbers, stand for one syscall number or both for any: `shown` for the
    low 32 bits of one less than it, as an `int` that is not negative, `stored` for one less than it.
    A number that is not positive stands for any. -/
def SameNumber (shown stored : U64) : Prop :=
  (0 < stored.toInt ∧ stored.toInt ≤ 2 ^ 31 ∧ 0 < shown.toInt ∧ (shown.toInt - 1) % 2 ^ 32 = stored.toInt - 1) ∨
    (stored.toInt ≤ 0 ∧ (shown.toInt ≤ 0 ∨ 2 ^ 31 ≤ (shown.toInt - 1) % 2 ^ 32))

instance (shown stored : U64) : Decidable (SameNumber shown stored) := inferInstanceAs (Decidable (_ ∨ _))

theorem shownNr_eq_iff (shown stored : U64) :
    (shownNr shown.toInt).getD (-1) = (if stored.toInt > 0 then stored.toInt - 1 else -1) ↔
      SameNumber shown stored := by
  unfold SameNumber
  generalize shown.toInt = x
  generalize stored.toInt = y
  -- the `int` is the remainder, or negative where that has its top bit
  have hint : (BitVec.ofInt 32 (x - 1)).toInt = if (x - 1) % 2 ^ 32 < 2 ^ 31 then (x - 1) % 2 ^ 32
      else (x - 1) % 2 ^ 32 - 2 ^ 32 := by
    rw [BitVec.toInt_ofInt, Int.bmod_def]
    rfl
  unfold shownNr
  dsimp only
  rw [hint]
  split_ifs <;> simp only [Option.getD_some, Option.getD_none, true_iff] <;> omega

/-- Each whole entry has its site twice, in its first two words, and in its third word the number
    of the word after it; and there is such a word after the last of them. -/
structure ReadsTheSame (buf : List U8) : Prop where
  room : 8 ≤ buf.length % 24
  cap : buf.length / 24 ≤ maxPolicyEntries
  site : ∀ i < buf.length / 24, sectionWord buf (3 * i) = sectionWord buf (3 * i + 1)
  site_ne : ∀ i < buf.length / 24, sectionWord buf (3 * i + 1) ≠ 0
  number : ∀ i < buf.length / 24, SameNumber (sectionWord buf (3 * i + 2)) (sectionWord buf (3 * i + 3))

/-- The dump and the loader on the bytes of a section. -/
theorem dump_eq_sites_iff {buf : List U8} (hlen : 8 ≤ buf.length) (textVaddr : U64) :
    (dumpSentinel (some (.bytes buf)) textVaddr).map DumpedEntry.pair = sentinelSites maxPolicyEntries buf ↔
      ReadsTheSame buf := by
  have hvisited : (intOfSize ((buf.length - 8) / 24)).toNat ≤ buf.length / 24 := by
    have hint := intOfSize_le ((buf.length - 8) / 24)
    have hdiv : (buf.length - 8) / 24 ≤ buf.length / 24 := Nat.div_le_div_right (by omega)
    omega
  have hmax : maxPolicyEntries = 4096 := rfl
  have hword : ∀ i k, wordAt buf (i * 24 + 8 * k) = sectionWord buf (3 * i + k) := by
    intro i k
    rw [sectionWord]
    congr 1
    omega
  have hfirst : ∀ i, wordAt buf (i * 24) = sectionWord buf (3 * i) := fun i => hword i 0
  have hsite : ∀ i, wordAt buf (8 + i * 24) = sectionWord buf (3 * i + 1) := by
    intro i
    rw [← hword i 1, Nat.add_comm]
  -- an entry of the loader against the one shown 8 bytes before
  have hentry : ∀ i, ((entryAt buf (8 + i * 24)).siteAddr ≠ 0 ∧
      (⟨wordAt buf (i * 24), (shownNr (entryAt buf (i * 24)).syscallNr).getD (-1)⟩ : PolicySite) =
        (entryAt buf (8 + i * 24)).decode) ↔
      sectionWord buf (3 * i) = sectionWord buf (3 * i + 1) ∧ sectionWord buf (3 * i + 1) ≠ 0 ∧
        SameNumber (sectionWord buf (3 * i + 2)) (sectionWord buf (3 * i + 3)) := by
    intro i
    rw [PolicyEntry.decode, PolicySite.mk.injEq, ← shownNr_eq_iff, ← hword i 2, ← hword i 3]
    simp only [entryAt, hfirst, hsite, show 8 + i * 24 + 16 = i * 24 + 8 * 3 by omega]
    exact and_left_comm
  rw [dumpSentinel_pairs, sentinelSites, records_eq_entryAt, map_range_eq_filter_iff _ _ _ _ hvisited]
  simp only [decide_eq_true_eq, hentry]
  constructor
  · rintro ⟨hn, hcap, hall⟩
    have hsmall : (buf.length - 8) / 24 < 2 ^ 31 := by omega
    rw [intOfSize_of_lt hsmall, Int.toNat_natCast] at hn
    exact ⟨by omega, hcap, fun i hi => (hall i hi).1, fun i hi => (hall i hi).2.1, fun i hi => (hall i hi).2.2⟩
  · rintro ⟨hroom, hcap, hsite, hne, hnumber⟩
    have hsmall : (buf.length - 8) / 24 < 2 ^ 31 := by omega
    rw [intOfSize_of_lt hsmall, Int.toNat_natCast]
    exact ⟨by omega, hcap, fun i hi => ⟨hsite i hi, hne i hi, hnumber i hi⟩⟩

/-- **The dump shows the loader's entries, exactly when the header makes no difference.** For every
    image whose `.sentinel` section the loader accepts: the pairs that `dump_sentinel` shows, in either
    mode, are those `parse_sentinel_section` returns, if and only if the section's words read the same
    from its first byte as from behind the header. -/
theorem dump_agrees_iff (img : ElfImage) (buf : List U8) (hnames : img.hasShstrtab)
    (hdata : img.lastData (ascii ".sentinel") = some (.bytes buf)) (hlen : 8 ≤ buf.length)
    (hmagic : halfAt buf 0 = sentinelPolicyMagic) (hversion : halfAt buf 4 = sentinelPolicyVersion)
    (textVaddr : U64) :
    ∃ p, parseSentinelSection maxPolicyEntries (.elf img) = some p ∧
      ((dumpSentinel (img.lastData (ascii ".sentinel")) textVaddr).map DumpedEntry.pair = p.sites ↔
        ReadsTheSame buf) := by
  refine ⟨_, parseSentinelSection_elf maxPolicyEntries hnames hdata hlen hmagic hversion, ?_⟩
  rw [hdata]
  exact dump_eq_sites_iff hlen textVaddr

/-- An image with the given section. -/
def policyImage (buf : List U8) : ElfImage := ⟨[], true, [.ofBytes (ascii ".sentinel") buf]⟩

/-- Of a section with one site, at 0x1000, the header is shown as the site. -/
theorem header_shown_as_site :
    (parseSentinelSection maxPolicyEntries (.elf (policyImage (onePolicyEntry 0x10)))).map PolicyParse.sites =
        some [⟨0x1000, -1⟩] ∧
      (dumpSentinel ((policyImage (onePolicyEntry 0x10)).lastData (ascii ".sentinel")) 0).map DumpedEntry.pair =
        [⟨0x253454e54, -1⟩] := by
  decide +kernel

/-- Two entries: the header's own bytes as the first site, for `open`, and 3 as the second, for
    `execve`, which the dump finds in the low half of a word. -/
def evenSection : List U8 :=
  [0x54, 0x4e, 0x45, 0x53, 2, 0, 0, 0] ++ [0x54, 0x4e, 0x45, 0x53, 2, 0, 0, 0] ++ [3, 0, 0, 0, 0, 0, 0, 0] ++
    [3, 0, 0, 0, 0, 0, 0, 0] ++ [3, 0, 0, 0, 0, 0, 0, 0] ++ [60, 0, 0, 0, 1, 0, 0, 0] ++ [60, 0, 0, 0, 0, 0, 0, 0]

theorem dump_agrees_evenSection :
    ∃ p, parseSentinelSection maxPolicyEntries (.elf (policyImage evenSection)) = some p ∧
      (dumpSentinel ((policyImage evenSection).lastData (ascii ".sentinel")) 0).map DumpedEntry.pair = p.sites ∧
      (dumpSentinel ((policyImage evenSection).lastData (ascii ".sentinel")) 0).map DumpedEntry.pair =
        [⟨0x253454e54, 2⟩, ⟨3, 59⟩] := by
  obtain ⟨p, hp, hiff⟩ := dump_agrees_iff (policyImage evenSection) evenSection rfl (by decide +kernel)
    (by decide) (by decide +kernel) (by decide +kernel) 0
  refine ⟨p, hp, hiff.mpr ⟨by decide, by decide, ?_, ?_, ?_⟩, by decide +kernel⟩
  all_goals decide +kernel

/-! Import lists. -/

/-- The loop of `dump_imports`: `strnlen` finds the name, `%s` prints it. The bytes left bound the fuel. -/
def dumpImportsLoop : Nat → List U8 → ImportScan
  | fuel + 1, b :: rest =>
    let name := cstrOf (b :: rest)
    let scan := dumpImportsLoop fuel ((b :: rest).drop (name.length + 1))
    if name.length > 0 then ⟨name :: scan.names, scan.overrun || name.length = (b :: rest).length⟩ else scan
  | _, _ => ⟨[], false⟩

/-- `dump_imports`: the names it prints, in either mode, and whether `%s` ran past the end. -/
def dumpImports (data : Option ElfData) : ImportScan :=
  dumpImportsLoop (ElfData.optional data).length (ElfData.optional data)

/-- A blob is one name without a NUL, or begins with a name and its NUL. -/
theorem blob_cases (blob : List U8) : 0 ∉ blob ∨ ∃ name rest, 0 ∉ name ∧ blob = name ++ 0 :: rest := by
  by_cases h : 0 ∈ blob
  · obtain ⟨name, rest, hblob, hname⟩ := List.eq_append_cons_of_mem h
    exact Or.inr ⟨name, rest, hname, hblob⟩
  · exact Or.inl h

section Loops
variable {fuel slots : Nat} {blob name rest : List U8}

/-- The scan with one name in front, unless it is empty. -/
def ImportScan.cons (name : CStr) (scan : ImportScan) : ImportScan :=
  if name = [] then scan else ⟨name :: scan.names, scan.overrun⟩

theorem drop_name (name rest : List U8) : (name ++ 0 :: rest).drop (name.length + 1) = rest := by
  rw [← List.drop_drop, List.drop_left, List.drop_one, List.tail_cons]

theorem length_name (name rest : List U8) : ¬ name.length = (name ++ 0 :: rest).length := by
  rw [List.length_append, List.length_cons]
  omega

theorem dumpImportsLoop_nil (fuel : Nat) : dumpImportsLoop fuel [] = ⟨[], false⟩ := by
  cases fuel with
  | zero => rfl
  | succ fuel => rfl

theorem dumpImportsLoop_succ (hne : blob ≠ []) :
    dumpImportsLoop (fuel + 1) blob =
      if (cstrOf blob).length > 0 then
        ⟨cstrOf blob :: (dumpImportsLoop fuel (blob.drop ((cstrOf blob).length + 1))).names,
          (dumpImportsLoop fuel (blob.drop ((cstrOf blob).length + 1))).overrun || (cstrOf blob).length = blob.length⟩
      else dumpImportsLoop fuel (blob.drop ((cstrOf blob).length + 1)) := by
  obtain ⟨b, bs, rfl⟩ := List.exists_cons_of_ne_nil hne
  rfl

theorem dumpImportsLoop_unterminated (h : 0 ∉ blob) (hne : blob ≠ []) :
    dumpImportsLoop (fuel + 1) blob = ⟨[blob], true⟩ := by
  rw [dumpImportsLoop_succ hne, cstrOf_eq_self h, if_pos (List.length_pos_iff.mpr hne),
    List.drop_of_length_le (by omega), dumpImportsLoop_nil, decide_eq_true rfl]
  rfl

theorem dumpImportsLoop_name (h : 0 ∉ name) :
    dumpImportsLoop (fuel + 1) (name ++ 0 :: rest) = (dumpImportsLoop fuel rest).cons name := by
  rw [dumpImportsLoop_succ (by simp), cstrOf_append_nul h, drop_name, decide_eq_false (length_name name rest),
    Bool.or_false, ImportScan.cons]
  by_cases hne : name = []
  · rw [if_neg (by rw [hne]; exact Nat.lt_irrefl 0), if_pos hne]
  · rw [if_pos (List.length_pos_iff.mpr hne), if_neg hne]

theorem importLoop_nil (fuel slots : Nat) : importLoop fuel slots [] = ⟨[], false⟩ := by
  cases fuel with
  | zero => rfl
  | succ fuel =>
    cases slots with
    | zero => rfl
    | succ slots => rfl

/-- Without room nothing is read. -/
theorem importLoop_full (fuel : Nat) (blob : List U8) : importLoop fuel 0 blob = ⟨[], false⟩ := by
  cases fuel with
  | zero => rfl
  | succ fuel => rfl

theorem importLoop_nul : importLoop (fuel + 1) (slots + 1) (0 :: rest) = importLoop fuel (slots + 1) rest := by
  rw [importLoop, if_pos rfl]

theorem importLoop_succ {b : U8} {bs : List U8} (hb : b ≠ 0) :
    importLoop (fuel + 1) (slots + 1) (b :: bs) =
      ⟨cstrOf (b :: bs) :: (importLoop fuel slots ((b :: bs).drop ((cstrOf (b :: bs)).length + 1))).names,
        (importLoop fuel slots ((b :: bs).drop ((cstrOf (b :: bs)).length + 1))).overrun ||
          (cstrOf (b :: bs)).length = (b :: bs).length⟩ := by
  rw [importLoop, if_neg hb]

theorem importLoop_unterminated (h : 0 ∉ blob) (hne : blob ≠ []) :
    importLoop (fuel + 1) (slots + 1) blob = ⟨[blob], true⟩ := by
  obtain ⟨b, bs, rfl⟩ := List.exists_cons_of_ne_nil hne
  rw [importLoop_succ (fun hzero => h (hzero ▸ List.mem_cons_self)), cstrOf_eq_self h,
    List.drop_of_length_le (by omega), importLoop_nil, decide_eq_true rfl]
  rfl

theorem importLoop_name (h : 0 ∉ name) (hne : name ≠ []) :
    importLoop (fuel + 1) (slots + 1) (name ++ 0 :: rest) = (importLoop fuel slots rest).cons name := by
  obtain ⟨b, bs, rfl⟩ := List.exists_cons_of_ne_nil hne
  rw [List.cons_append, importLoop_succ (fun hzero => h (hzero ▸ List.mem_cons_self)), ← List.cons_append,
    cstrOf_append_nul h, drop_name, decide_eq_false (length_name (b :: bs) rest), Bool.or_false, ImportScan.cons,
    if_neg hne]

/-- What the dump reads: it runs over the end exactly without a NUL there, of a name it has printed,
    and every other name has a NUL of its own. -/
theorem dumpImportsLoop_spec (hfuel : blob.length ≤ fuel) :
    ((dumpImportsLoop fuel blob).overrun = true ↔ ∃ b, blob.getLast? = some b ∧ b ≠ 0) ∧
      ((dumpImportsLoop fuel blob).overrun = true → (dumpImportsLoop fuel blob).names ≠ []) ∧
      ((dumpImportsLoop fuel blob).overrun = false → (dumpImportsLoop fuel blob).names.length ≤ blob.count 0) := by
  induction fuel generalizing blob with
  | zero =>
    obtain rfl := List.length_eq_zero_iff.mp (Nat.le_zero.mp hfuel)
    simp [dumpImportsLoop]
  | succ fuel ih =>
    rcases blob_cases blob with hopen | ⟨name, rest, hname, rfl⟩
    · by_cases hne : blob = []
      · subst hne
        simp [dumpImportsLoop]
      · rw [dumpImportsLoop_unterminated hopen hne]
        have hlast : blob.getLast hne ≠ 0 := fun hzero => hopen (hzero ▸ List.getLast_mem hne)
        refine ⟨iff_of_true rfl ⟨_, List.getLast?_eq_some_getLast hne, hlast⟩, fun _ => List.cons_ne_nil _ _, ?_⟩
        intro hover
        cases hover
    · rw [List.length_append, List.length_cons] at hfuel
      obtain ⟨hover, hnames, hcount⟩ := @ih rest (by omega)
      rw [dumpImportsLoop_name hname, ImportScan.cons]
      -- the last byte is that of the rest, or the NUL of this name
      have hlast : (∃ b, (name ++ 0 :: rest).getLast? = some b ∧ b ≠ 0) ↔ ∃ b, rest.getLast? = some b ∧ b ≠ 0 := by
        cases rest with
        | nil => simp
        | cons r rs => simp [List.getLast?_cons]
      rw [hlast]
      have hnul : rest.count 0 + 1 ≤ (name ++ 0 :: rest).count 0 := by
        rw [List.count_append, List.count_cons_self]
        omega
      by_cases hne : name = []
      · rw [if_pos hne]
        exact ⟨hover, hnames, fun h => by have := hcount h; omega⟩
      · rw [if_neg hne]
        refine ⟨hover, fun _ => List.cons_ne_nil _ _, fun h => ?_⟩
        have hrest := hcount h
        rw [List.length_cons]
        omega

/-- The names the dump prints are the non-empty pieces between the NULs. -/
theorem dumpImportsLoop_names (hfuel : blob.length ≤ fuel) :
    (dumpImportsLoop fuel blob).names = (blob.splitOnP (· = 0)).filter (· ≠ []) := by
  induction fuel generalizing blob with
  | zero =>
    obtain rfl := List.length_eq_zero_iff.mp (Nat.le_zero.mp hfuel)
    rfl
  | succ fuel ih =>
    rcases blob_cases blob with hopen | ⟨name, rest, hname, rfl⟩
    · have hbytes : ∀ b ∈ blob, decide (b = 0) = false := fun b hb => decide_eq_false fun hzero => hopen (hzero ▸ hb)
      rw [List.splitOnP_eq_singleton hbytes]
      by_cases hne : blob = []
      · subst hne
        rfl
      · rw [dumpImportsLoop_unterminated hopen hne]
        simp [hne]
    · have hbytes : ∀ b ∈ name, decide (b = 0) = false := fun b hb => decide_eq_false fun hzero => hname (hzero ▸ hb)
      rw [List.length_append, List.length_cons] at hfuel
      rw [dumpImportsLoop_name hname, ImportScan.cons,
        List.splitOnP_append_cons_of_forall_mem hbytes 0 (decide_eq_true rfl), List.filter_cons,
        ← @ih rest (by omega)]
      by_cases hne : name = []
      · simp [hne]
      · simp [hne]

/-- **The loader's loop** returns the first names the dump prints, as many as have room, and runs over
    the end if the last of them does. -/
theorem importLoop_eq (hfuel : blob.length ≤ fuel) :
    importLoop fuel slots blob =
      ⟨(dumpImportsLoop fuel blob).names.take slots,
        (dumpImportsLoop fuel blob).overrun && decide ((dumpImportsLoop fuel blob).names.length ≤ slots)⟩ := by
  induction fuel generalizing slots blob with
  | zero =>
    obtain rfl := List.length_eq_zero_iff.mp (Nat.le_zero.mp hfuel)
    rw [importLoop_nil, dumpImportsLoop_nil, List.take_nil, Bool.false_and]
  | succ fuel ih =>
    cases slots with
    | zero =>
      have hempty : ((dumpImportsLoop (fuel + 1) blob).overrun &&
          decide ((dumpImportsLoop (fuel + 1) blob).names.length ≤ 0)) = false := by
        rw [Bool.and_eq_false_imp]
        intro hover
        refine decide_eq_false fun hlen => ?_
        exact (dumpImportsLoop_spec hfuel).2.1 hover (List.length_eq_zero_iff.mp (Nat.le_zero.mp hlen))
      rw [importLoop_full, List.take_zero, hempty]
    | succ slots =>
      rcases blob_cases blob with hopen | ⟨name, rest, hname, rfl⟩
      · by_cases hne : blob = []
        · rw [hne, importLoop_nil, dumpImportsLoop_nil, List.take_nil, Bool.false_and]
        · rw [importLoop_unterminated hopen hne, dumpImportsLoop_unterminated hopen hne]
          simp
      · rw [List.length_append, List.length_cons] at hfuel
        rw [dumpImportsLoop_name hname, ImportScan.cons]
        by_cases hne : name = []
        · rw [if_pos hne, hne, List.nil_append, importLoop_nul, ih (by omega)]
        · rw [if_neg hne, importLoop_name hname hne, ImportScan.cons, if_neg hne, ih (by omega)]
          simp

end Loops

/-- **The import list.** Of any section the loader stays within its bytes and returns the names the
    dump prints, if and only if the last byte is a NUL and there is room for the non-empty strings. -/
theorem imports_agree_iff (img : ElfImage) (blob : List U8) (hnames : img.hasShstrtab)
    (hdata : img.firstData (ascii ".sentinel_imports") = some (.bytes blob)) :
    ((parseSentinelImports (.elf img)).overrun = false ∧
        (parseSentinelImports (.elf img)).names = (dumpImports (some (.bytes blob))).names) ↔
      (∀ b, blob.getLast? = some b → b = 0) ∧
        ((blob.splitOnP (· = 0)).filter (· ≠ [])).length ≤ (intOfSize (blob.count 0)).toNat := by
  have hparse : parseSentinelImports (.elf img) = scanImports blob := by
    rw [parseSentinelImports, if_neg (not_not.mpr hnames), parsedSections, hdata]
    rfl
  have hdump : dumpImports (some (.bytes blob)) = dumpImportsLoop blob.length blob := rfl
  obtain ⟨hover, -, -⟩ := dumpImportsLoop_spec (le_refl blob.length)
  have hlast : (∀ b, blob.getLast? = some b → b = 0) ↔ (dumpImportsLoop blob.length blob).overrun = false := by
    rw [← Bool.not_eq_true, hover]
    simp only [not_exists, not_and, not_not]
  rw [hparse, hdump, scanImports, importLoop_eq (le_refl blob.length), hlast, List.take_eq_self_iff,
    ← dumpImportsLoop_names (le_refl blob.length)]
  dsimp only
  constructor
  · rintro ⟨hwithin, hroom⟩
    rw [decide_eq_true hroom, Bool.and_true] at hwithin
    exact ⟨hwithin, hroom⟩
  · rintro ⟨hwithin, hroom⟩
    exact ⟨by rw [hwithin, Bool.false_and], hroom⟩

/-- With fewer than `2 ^ 31` NULs there is room, and the last byte decides. -/
theorem imports_room {blob : List U8} (hcount : blob.count 0 < 2 ^ 31) (hlast : ∀ b, blob.getLast? = some b → b = 0) :
    ((blob.splitOnP (· = 0)).filter (· ≠ [])).length ≤ (intOfSize (blob.count 0)).toNat := by
  obtain ⟨hover, -, hlen⟩ := dumpImportsLoop_spec (le_refl blob.length)
  rw [← dumpImportsLoop_names (le_refl blob.length), intOfSize_of_lt hcount, Int.toNat_natCast]
  refine hlen (Bool.eq_false_iff.mpr fun htrue => ?_)
  obtain ⟨b, hb, hne⟩ := hover.mp htrue
  exact hne (hlast b hb)

/-- An image with the given import list. -/
def importImage (blob : List U8) : ElfImage := ⟨[], true, [.ofBytes (ascii ".sentinel_imports") blob]⟩

theorem imports_agree_iff_two_names :
    (parseSentinelImports (.elf (importImage (ascii "open" ++ 0 :: 0 :: ascii "exit" ++ [0])))).overrun = false ∧
      (parseSentinelImports (.elf (importImage (ascii "open" ++ 0 :: 0 :: ascii "exit" ++ [0])))).names =
        [ascii "open", ascii "exit"] := by
  obtain ⟨hwithin, hsame⟩ := (imports_agree_iff (importImage (ascii "open" ++ 0 :: 0 :: ascii "exit" ++ [0]))
    (ascii "open" ++ 0 :: 0 :: ascii "exit" ++ [0]) rfl (by decide +kernel)).mpr
    ⟨by decide +kernel, by decide +kernel⟩
  exact ⟨hwithin, hsame.trans (by decide +kernel)⟩

/-- **A name without a NUL** is dropped where no empty string left room for it, and run over otherwise. -/
theorem unterminated_import :
    parseSentinelImports (.elf (importImage (ascii "open" ++ 0 :: ascii "exit"))) = ⟨[ascii "open"], false⟩ ∧
      (dumpImports (some (.bytes (ascii "open" ++ 0 :: ascii "exit")))).names = [ascii "open", ascii "exit"] ∧
      (parseSentinelImports (.elf (importImage (0 :: ascii "exit")))).overrun = true := by
  decide +kernel

end SentinelStack.Cc
