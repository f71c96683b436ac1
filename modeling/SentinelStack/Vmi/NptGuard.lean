import SentinelStack.Lib.Blocks
import SentinelStack.Vmi.Memory

/- The guard table (`npt_guard.c`): registering a region, its baseline, and the
   bounds check a fault address goes through.

   `nptGuardCheckBounds` scans the table for the first region whose page-rounded
   range holds the address. Against that stands the geometry: `Contains` and
   `Touches`, over the numbers the words stand for. `checkBounds_eq` says which
   region the scan answers with: the first that touches the page of the address,
   among those whose end does not wrap when rounded up to a page (`Seen`). -/
namespace SentinelStack.Vmi
open SentinelStack.Lib

def maxGuardRegions : Nat := 16
def regionNameMax : Nat := 32
def sysCallTableSize : Nat := 512 * 8
def pageShift : Nat := 12

/-- A registered region; `add_guard_region` refuses the size 0. -/
structure GuardRegion where
  name : CStr
  gpa : U64
  size : U64
  critical : Bool
  baselineHash : U64
  baselineValid : Bool
  lastAlertHash : U64
  size_ne : size ≠ 0
  deriving DecidableEq

/-- `guard_regions` with its first `guard_region_count` entries. -/
structure GuardTable where
  regions : List GuardRegion
  count_le : regions.length ≤ maxGuardRegions

def GuardTable.push (t : GuardTable) (r : GuardRegion) (h : t.regions.length < maxGuardRegions) : GuardTable :=
  ⟨t.regions ++ [r], by rw [List.length_append]; exact h⟩

/-- The static state of `npt_guard.c`. `readonlyPages` logs the calls of `set_page_readonly`,
    whose results the code discards. -/
structure GuardState where
  guardRegions : GuardTable
  cleanSyscallTable : List U8
  snapshotTaken : Bool
  cleanSyscallHash : U64
  readonlyPages : List U64

/-! Baselines. -/

def fnv1a64Init : U64 := 1469598103934665603

def fnv1a64Update (h : U64) (data : List U8) : U64 :=
  data.foldl (fun h b => (h ^^^ b.setWidth 64) * 1099511628211) h

/-- The loop of `hash_guest_region`, a page-sized chunk a turn. -/
def hashLoop (host : Host) (s : VmiSession) (gpa : U64) : (fuel remaining offset : Nat) → (h : U64) → Option U64
  | 0, remaining, _, h => if remaining > 0 then none else some h
  | fuel + 1, remaining, offset, h =>
    if remaining > 0 then
      let chunk := min remaining vmiPageSize
      match (vmiReadPhysical host s (gpa + BitVec.ofNat 64 offset) chunk).bytes? with
      | none => none
      | some buf => hashLoop host s gpa fuel (remaining - chunk) (offset + chunk) (fnv1a64Update h buf)
    else some h

def hashGuestRegion (host : Host) (s : VmiSession) (gpa size : U64) : Option U64 :=
  if size = 0 then none else hashLoop host s gpa size.toNat size.toNat 0 fnv1a64Init

/-- The syscall table is hashed in one read. -/
theorem hashGuestRegion_table_eq (host : Host) (s : VmiSession) (gpa : U64) :
    hashGuestRegion host s gpa (BitVec.ofNat 64 sysCallTableSize) =
      (vmiReadPhysical host s gpa sysCallTableSize).bytes?.map (fnv1a64Update fnv1a64Init) := by
  have hchunk : min 4096 vmiPageSize = sysCallTableSize := by decide
  rw [hashGuestRegion, if_neg (by decide)]
  change hashLoop host s gpa (4095 + 1) 4096 0 fnv1a64Init = _
  rw [hashLoop, if_pos (by decide), BitVec.add_zero]
  dsimp only
  rw [hchunk]
  cases (vmiReadPhysical host s gpa sysCallTableSize).bytes? with
  | none => rfl
  | some buf => rfl

/-- Whether the table could be read, and the state after it: a failed read leaves what it
    wrote in the snapshot buffer. -/
def snapshotSyscallTable (host : Host) (s : VmiSession) (gs : GuardState) : Bool × GuardState :=
  let r := vmiReadPhysical host s s.syscallTableGpa sysCallTableSize
  let gs := { gs with cleanSyscallTable := overwrite r.buf gs.cleanSyscallTable }
  if r.ok then
    (true, { gs with
      snapshotTaken := true
      cleanSyscallHash := fnv1a64Update fnv1a64Init gs.cleanSyscallTable })
  else (false, gs)

/-- The region with its baseline, if that could be taken, and the state after it. -/
def snapshotGuardRegion (host : Host) (s : VmiSession) (gs : GuardState) (region : GuardRegion) :
    Option GuardRegion × GuardState :=
  if region.name = ascii "sys_call_table" then
    let r := snapshotSyscallTable host s gs
    if r.1 then
      (some { region with baselineHash := r.2.cleanSyscallHash, baselineValid := true, lastAlertHash := 0 }, r.2)
    else (none, r.2)
  else
    match hashGuestRegion host s region.gpa region.size with
    | none => (none, gs)
    | some hash => (some { region with baselineHash := hash, baselineValid := true, lastAlertHash := 0 }, gs)

theorem snapshotGuardRegion_some {host : Host} {s : VmiSession} {gs : GuardState} {region region' : GuardRegion}
    (h : (snapshotGuardRegion host s gs region).1 = some region') :
    ∃ hash, region' = { region with baselineHash := hash, baselineValid := true, lastAlertHash := 0 } := by
  unfold snapshotGuardRegion at h
  split at h
  · dsimp only at h
    split at h
    · exact ⟨_, (Option.some.inj h).symm⟩
    · cases h
  · split at h
    · cases h
    · exact ⟨_, (Option.some.inj h).symm⟩

/-! Registration. -/

/-- `while (page < end) { set_page_readonly(page); page += VMI_PAGE_SIZE; }`: the pages it
    is called on, or `none` when the loop takes more turns than there are pages: then `page`
    has wrapped and the loop does not end. -/
def regionPages (r : GuardRegion) : Option (List U64) :=
  match stepLoop (BitVec.ofNat 64 vmiPageSize) (2 ^ (64 - pageShift)) (alignDown pageShift r.gpa) (r.gpa + r.size) with
  | (pages, true) => some pages
  | (_, false) => none

/-- The entry `add_guard_region` fills in. -/
def newRegion (name : CStr) (gpa size : U64) (critical : Bool) (h : size ≠ 0) : GuardRegion where
  name := strncpyz regionNameMax name
  gpa := gpa
  size := size
  critical := critical
  baselineHash := 0
  baselineValid := false
  lastAlertHash := 0
  size_ne := h

/-- Whether the registration succeeded, and the state after it; `none` when the call does not
    return. A region whose baseline fails stays in the table without one. -/
def nptGuardProtectDynamic (host : Host) (s : VmiSession) (gs : GuardState) (gpa size : U64) (critical : Bool)
    (name : CStr) : Option (Bool × GuardState) :=
  if h : size = 0 ∨ gs.guardRegions.regions.length ≥ maxGuardRegions then some (false, gs)
  else
    have room : gs.guardRegions.regions.length < maxGuardRegions := by omega
    let region := newRegion name gpa size critical (fun h0 => h (Or.inl h0))
    let snapshot := snapshotGuardRegion host s gs region
    match snapshot.1 with
    | none => some (false, { snapshot.2 with guardRegions := gs.guardRegions.push region room })
    | some region =>
      let gs' := { snapshot.2 with guardRegions := gs.guardRegions.push region room }
      if s.nptArmed then
        (regionPages region).map fun pages => (true, { gs' with readonlyPages := gs'.readonlyPages ++ pages })
      else some (true, gs')

/-- The table takes another region of this size. -/
def Enters (gs : GuardState) (size : U64) : Prop := size ≠ 0 ∧ gs.guardRegions.regions.length < maxGuardRegions

/-- **What a registration that returns has done.** It was refused; or the region has entered the
    table and has no baseline; or it has one, and if the guard is armed its pages were protected. -/
theorem protectDynamic_cases {host : Host} {s : VmiSession} {gs gs' : GuardState} {gpa size : U64} {critical : Bool}
    {name : CStr} {ok : Bool} (h : nptGuardProtectDynamic host s gs gpa size critical name = some (ok, gs')) :
    (¬ Enters gs size ∧ ok = false ∧ gs' = gs) ∨
      ∃ henters : Enters gs size,
        let region := newRegion name gpa size critical henters.1
        let snapshot := snapshotGuardRegion host s gs region
        (snapshot.1 = none ∧ ok = false ∧
            gs' = { snapshot.2 with guardRegions := gs.guardRegions.push region henters.2 }) ∨
          ∃ baselined pages, snapshot.1 = some baselined ∧ ok = true ∧
            (if s.nptArmed then regionPages baselined = some pages else pages = []) ∧
            gs' = { snapshot.2 with
              guardRegions := gs.guardRegions.push baselined henters.2
              readonlyPages := snapshot.2.readonlyPages ++ pages } := by
  unfold nptGuardProtectDynamic at h
  split at h
  next hrefused =>
    cases h
    exact Or.inl ⟨fun henters => hrefused.elim henters.1 (not_le.mpr henters.2), rfl, rfl⟩
  next hroom =>
    have henters : Enters gs size := ⟨fun h0 => hroom (Or.inl h0), not_le.mp fun hle => hroom (Or.inr hle)⟩
    refine Or.inr ⟨henters, ?_⟩
    dsimp only at h ⊢
    split at h
    next hnone =>
      cases h
      exact Or.inl ⟨hnone, rfl, rfl⟩
    next baselined hsome =>
      split at h
      next harmed =>
        obtain ⟨pages, hpages, heq⟩ := Option.map_eq_some_iff.mp h
        cases heq
        exact Or.inr ⟨baselined, pages, hsome, rfl, by rw [if_pos harmed]; exact hpages, rfl⟩
      next harmed =>
        cases h
        exact Or.inr ⟨baselined, [], hsome, rfl, by rw [if_neg harmed], by rw [List.append_nil]⟩

/-! The bounds check. -/

/-- What `npt_guard_check_bounds` answers: its return value and the region it names. -/
inductive BoundsResult where
  | unknown
  | direct (region : GuardRegion)
  | collateral (region : GuardRegion)
  deriving DecidableEq

def BoundsResult.code : BoundsResult → Nat
  | unknown => 0
  | direct _ => 1
  | collateral _ => 2

def nptGuardCheckBounds (gpa : U64) : List GuardRegion → BoundsResult
  | [] => .unknown
  | r :: rest =>
    let endGpa := r.gpa + r.size
    if gpa ≥ alignDown pageShift r.gpa ∧ gpa < alignUp pageShift endGpa then
      if gpa ≥ r.gpa ∧ gpa < endGpa then .direct r else .collateral r
    else nptGuardCheckBounds gpa rest

namespace GuardRegion

/-- The region does not run past the end of the address space. -/
def Fits (r : GuardRegion) : Prop := r.gpa.toNat + r.size.toNat ≤ 2 ^ 64

/-- `g` is one of the region's bytes. -/
def Contains (r : GuardRegion) (g : U64) : Prop :=
  r.gpa.toNat ≤ g.toNat ∧ g.toNat < r.gpa.toNat + r.size.toNat

/-- `g` is on a page that holds one of the region's bytes. -/
def OnPage (r : GuardRegion) (g : U64) : Prop :=
  Touches (2 ^ pageShift) r.gpa.toNat (r.gpa.toNat + r.size.toNat) g.toNat

/-- The region ends before the last page of the address space, where rounding its end up
    to a page wraps to 0. -/
def Seen (r : GuardRegion) : Prop := r.gpa.toNat + r.size.toNat ≤ 2 ^ 64 - 2 ^ pageShift

instance (r : GuardRegion) : Decidable r.Fits := inferInstanceAs (Decidable (_ ≤ _))
instance (r : GuardRegion) (g : U64) : Decidable (r.Contains g) := inferInstanceAs (Decidable (_ ∧ _))
instance (r : GuardRegion) (g : U64) : Decidable (r.OnPage g) := inferInstanceAs (Decidable (Touches ..))
instance (r : GuardRegion) : Decidable r.Seen := inferInstanceAs (Decidable (_ ≤ _))

theorem size_pos (r : GuardRegion) : 0 < r.size.toNat := by
  have := r.size_ne
  by_contra h
  exact this (BitVec.eq_of_toNat_eq (by simpa using h))

theorem Contains.onPage {r : GuardRegion} {g : U64} (h : r.Contains g) : r.OnPage g := ⟨g.toNat, h.1, h.2, rfl⟩

theorem Seen.end_toNat {r : GuardRegion} (h : r.Seen) : (r.gpa + r.size).toNat = r.gpa.toNat + r.size.toNat := by
  simp only [Seen, pageShift] at h
  rw [BitVec.toNat_add]
  exact Nat.mod_eq_of_lt (by omega)

/-- The page test of the scan finds the regions that touch the page, except the unseen ones. -/
theorem page_test_iff {r : GuardRegion} (hfit : r.Fits) (g : U64) :
    g ≥ alignDown pageShift r.gpa ∧ g < alignUp pageShift (r.gpa + r.size) ↔ r.Seen ∧ r.OnPage g := by
  have hpos := r.size_pos
  by_cases hseen : r.Seen
  · have hend := hseen.end_toNat
    have hlt : r.gpa < r.gpa + r.size := by rw [BitVec.lt_def, hend]; omega
    have hround : (r.gpa + r.size).toNat + (2 ^ pageShift - 1) < 2 ^ 64 := by
      rw [hend]
      unfold Seen at hseen
      simp only [pageShift] at hseen ⊢
      omega
    rw [ge_iff_le, aligned_iff_touches hlt hround, hend]
    simp [hseen, OnPage]
  · have hzero : alignUp pageShift (r.gpa + r.size) = 0 := by
      unfold Seen at hseen
      unfold Fits at hfit
      rcases hfit.lt_or_eq with hlt | heq
      · apply alignUp_eq_zero (by decide)
        rw [BitVec.toNat_add, Nat.mod_eq_of_lt hlt]
        simp only [pageShift] at hseen ⊢
        omega
      · -- the region ends with the address space: its end is the word 0
        have hend : r.gpa + r.size = 0 := BitVec.eq_of_toNat_eq (by rw [BitVec.toNat_add, heq]; rfl)
        rw [hend]
        decide
    rw [hzero]
    simp [hseen]

theorem byte_test_iff {r : GuardRegion} (hseen : r.Seen) (g : U64) :
    g ≥ r.gpa ∧ g < r.gpa + r.size ↔ r.Contains g := by
  rw [ge_iff_le, BitVec.le_def, BitVec.lt_def, hseen.end_toNat]
  rfl

end GuardRegion

/-- The first region of the table that the scan can see and that touches the page of `g`. -/
def firstOnPage (regions : List GuardRegion) (g : U64) : Option GuardRegion :=
  regions.find? fun r => r.Seen ∧ r.OnPage g

/-- The scan answers for the first region on the page, and only for that one. -/
theorem checkBounds_eq {regions : List GuardRegion} (hfit : ∀ r ∈ regions, r.Fits) (g : U64) :
    nptGuardCheckBounds g regions =
      match firstOnPage regions g with
      | none => .unknown
      | some r => if r.Contains g then .direct r else .collateral r := by
  induction regions with
  | nil => rfl
  | cons r rest ih =>
    have hr := GuardRegion.page_test_iff (hfit r (by simp)) g
    rw [nptGuardCheckBounds, firstOnPage, List.find?_cons]
    by_cases h : r.Seen ∧ r.OnPage g
    · simp only [hr, h, and_self, decide_true, if_true, GuardRegion.byte_test_iff h.1]
    · simp only [hr, h, decide_false, if_false]
      exact ih (fun x hx => hfit x (by simp [hx]))

end SentinelStack.Vmi
