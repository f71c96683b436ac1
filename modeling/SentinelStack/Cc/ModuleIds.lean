import SentinelStack.Cc.Check
import SentinelStack.Lib.Writes

/- The ids of the libraries, and what is registered under them (`is_lib_watched`,
   `register_watched_lib`, `dlopen_scan` and the discovery in `main`, `loader.c`).

   The next id is kept in three places: the discovery counts in a variable of its
   own, the hand-over takes it again from the length of the watch list, and the
   scans count on from there. `RegistryState` is the loader with the record of the
   policy maps it registered for libraries; without the record it is `loaderRun`
   (`registryRun_loader`).

   Main result: `dynamic_ids` — over the discovery and any scans, whatever the maps
   file says and whichever map operations fail, a path has one id and an id one
   path, the ids lie in `[MODULE_DYNAMIC_BASE, 64)`, and what is registered under
   an id stays there. The invariant behind it (`RegistryState.Inv`) is that the
   ids were given in order, and that the watch list holds every path that has one;
   it has 64 places and 61 ids, so that it never drops a path. -/
namespace SentinelStack.Cc
open SentinelStack.Lib

/-! The loader with its registrations. -/

/-- The loader, and the libraries whose policy map is in the registry, in order, with their ids. -/
structure RegistryState where
  loader : LoaderState
  given : List (CStr × U32)

/-- One library of either loop: a map that was created and registered is on record. -/
def RegistryState.attempt (fuel : Nat) (lib : LibEnv) (path : CStr) (s : RegistryState) : RegistryState where
  loader := addLibrary fuel lib path s.loader
  given := if lib.created ∧ lib.registered then s.given ++ [(path, s.loader.nextModId)] else s.given

/-- `registerLibs`, with the record. -/
def registerLibsOf (fuel : Nat) (libs : Nat → LibEnv) : (paths : List CStr) → (i : Nat) → RegistryState → RegistryState
  | [], _, s => s
  | path :: rest, i, s =>
    if s.loader.halted ∨ ¬ s.loader.nextModId < maxModules then s
    else registerLibsOf fuel libs rest (i + 1) (s.attempt fuel (libs i) path)

/-- `dlopenScanLoop`, with the record. -/
def dlopenScanLoopOf (env : LoaderEnv) (libs : Nat → LibEnv) :
    (lines : List CStr) → (i : Nat) → RegistryState → RegistryState
  | [], _, s => s
  | line :: rest, i, s =>
    if s.loader.halted then s
    else dlopenScanLoopOf env libs rest (i + 1)
      ((scanTries env s.loader line).elim s fun path => s.attempt env.fuel (libs i) path)

/-- The discovery and the hand-over. -/
def discoveryOf (env : LoaderEnv) (st : LoaderState) : RegistryState :=
  let s := registerLibsOf env.fuel env.libs (seenLibs env.binName (mapsLines 512 env.discoverMaps) []) 0 ⟨st, []⟩
  ⟨handOver env s.loader, s.given⟩

def registryStart (env : LoaderEnv) : RegistryState :=
  let st := populateLibc env (populateMain env)
  if st.halted ∨ exitsEarly env st then ⟨{ st with halted := true }, []⟩ else discoveryOf env (populateLd env st)

def registryScan (env : LoaderEnv) (s : RegistryState) (scan : ScanEnv) : RegistryState :=
  dlopenScanLoopOf env scan.libs (mapsLines 512 scan.maps) 0 s

/-- The start and the scans after it. -/
def registryRun (env : LoaderEnv) (scans : List ScanEnv) : RegistryState :=
  run (registryScan env) (registryStart env) scans

/-! Without the record it is the loader's run. -/

theorem registerLibsOf_loader {fuel : Nat} {libs : Nat → LibEnv} (paths : List CStr) (i : Nat) (s : RegistryState) :
    (registerLibsOf fuel libs paths i s).loader = registerLibs fuel libs paths i s.loader := by
  induction paths generalizing i s with
  | nil => rfl
  | cons path rest ih =>
    rw [registerLibsOf, registerLibs]
    split
    · rfl
    · exact ih (i + 1) _

theorem dlopenScanLoopOf_loader {env : LoaderEnv} {libs : Nat → LibEnv} (lines : List CStr) (i : Nat)
    (s : RegistryState) : (dlopenScanLoopOf env libs lines i s).loader = dlopenScanLoop env libs lines i s.loader := by
  induction lines generalizing i s with
  | nil => rfl
  | cons line rest ih =>
    rw [dlopenScanLoopOf, dlopenScanLoop_cons]
    by_cases hhalt : s.loader.halted
    · rw [if_pos hhalt, if_pos hhalt]
    · rw [if_neg hhalt, if_neg hhalt, ih]
      cases scanTries env s.loader line with
      | none => rfl
      | some path => rfl

theorem registryStart_loader (env : LoaderEnv) : (registryStart env).loader = loaderStart env := by
  rw [registryStart, loaderStart]
  split
  · rfl
  · rw [discoveryOf, discoverLibs]
    dsimp only
    rw [registerLibsOf_loader]

/-- **The record changes nothing.** -/
theorem registryRun_loader (env : LoaderEnv) (scans : List ScanEnv) :
    (registryRun env scans).loader = loaderRun env scans := by
  induction scans using List.reverseRecOn with
  | nil => exact registryStart_loader env
  | append_singleton scans scan ih =>
    rw [registryRun, run_snoc, loaderRun, run_snoc, registryScan, dlopenScanLoopOf_loader, dlopenScan]
    exact congrArg _ ih

/-! The invariant. -/

/-- The ids were given in order, within the limit, and each path got one. -/
structure InOrder (given : List (CStr × U32)) : Prop where
  numbered : given.map (·.2.toNat) = List.range' moduleDynamicBase.toNat given.length
  within : moduleDynamicBase.toNat + given.length ≤ maxModules.toNat
  once : (given.map (·.1)).Nodup

theorem inOrder_nil : InOrder [] := ⟨rfl, by decide, List.nodup_nil⟩

/-- The next id goes to a new path. -/
theorem InOrder.snoc {given : List (CStr × U32)} (h : InOrder given) {path : CStr} {id : U32}
    (hid : id.toNat = moduleDynamicBase.toNat + given.length) (hlt : id < maxModules) (hnew : path ∉ given.map (·.1)) :
    InOrder (given ++ [(path, id)]) where
  numbered := by
    rw [List.map_append, List.length_append, List.length_singleton, List.range'_1_concat, h.numbered, ← hid]
    rfl
  within := by
    rw [BitVec.lt_def] at hlt
    rw [List.length_append, List.length_singleton]
    omega
  once := by
    rw [List.map_append, List.nodup_append']
    exact ⟨h.once, List.nodup_singleton path, List.disjoint_singleton.mpr hnew⟩

theorem InOrder.id_mem {given : List (CStr × U32)} (h : InOrder given) {g : CStr × U32} (hg : g ∈ given) :
    moduleDynamicBase ≤ g.2 ∧ g.2 < maxModules := by
  have hmem : g.2.toNat ∈ given.map (·.2.toNat) := List.mem_map_of_mem hg
  rw [h.numbered, List.mem_range'_1] at hmem
  have hwithin := h.within
  exact ⟨hmem.1, by rw [BitVec.lt_def]; omega⟩

theorem InOrder.ids_nodup {given : List (CStr × U32)} (h : InOrder given) : (given.map (·.2)).Nodup := by
  have hnumbers : (given.map (·.2.toNat)).Nodup := by
    rw [h.numbered]
    exact List.nodup_range'
  have hmap : given.map (·.2.toNat) = (given.map (·.2)).map BitVec.toNat := by
    rw [List.map_map]
    rfl
  rw [hmap] at hnumbers
  exact hnumbers.of_map _

/-- What holds between the steps: the record is in order, and unless the loader stopped, the counter
    is the next id, and the watch list has every path of the record and at most one more. -/
structure RegistryState.Inv (s : RegistryState) : Prop where
  inOrder : InOrder s.given
  next : s.loader.halted = false → s.loader.nextModId.toNat = moduleDynamicBase.toNat + s.given.length
  watched : s.loader.halted = false → ∀ g ∈ s.given, g.1 ∈ s.loader.watched.map (·.1)
  room : s.loader.halted = false → s.loader.watched.length ≤ s.given.length + 1

theorem RegistryState.inv_empty {st : LoaderState}
    (h : st.halted = false → st.nextModId = moduleDynamicBase ∧ st.watched = []) : RegistryState.Inv ⟨st, []⟩ where
  inOrder := inOrder_nil
  next := by
    intro hrun
    show st.nextModId.toNat = _
    rw [(h hrun).1]
    rfl
  watched := fun _ g hg => absurd hg List.not_mem_nil
  room := by
    intro hrun
    show st.watched.length ≤ _
    rw [(h hrun).2]
    exact Nat.zero_le _

/-- **One library.** A path that has no id yet may get the next one. -/
theorem RegistryState.Inv.attempt {s : RegistryState} (h : s.Inv) {fuel : Nat} {lib : LibEnv} {path : CStr}
    (hrun : s.loader.halted = false) (hnext : s.loader.nextModId < maxModules) (hnew : path ∉ s.given.map (·.1)) :
    (s.attempt fuel lib path).Inv := by
  have hid := h.next hrun
  have hlen := h.room hrun
  have hlt : moduleDynamicBase.toNat + s.given.length < maxModules.toNat := hid ▸ hnext
  have hbase : moduleDynamicBase.toNat = 3 := rfl
  have hmax : maxModules.toNat = 64 := rfl
  rw [RegistryState.attempt]
  rcases addLibrary_cases fuel lib path s.loader with ⟨hfailed, hsame⟩ | ⟨hok, ⟨hhalt, -⟩ | ⟨-, hadded⟩⟩
  · rw [hsame, if_neg hfailed]
    exact h
  · -- the loader has stopped in the block loop, with the map registered
    rw [if_pos hok]
    have hstopped : ∀ {P : Prop}, (addLibrary fuel lib path s.loader).halted = false → P := by
      intro P hrun'
      rw [hrun'] at hhalt
      cases hhalt
    exact ⟨h.inOrder.snoc hid hnext hnew, hstopped, hstopped, hstopped⟩
  · have hroom : ¬ s.loader.watched.length ≥ maxWatchedLibs := by
      rw [maxWatchedLibs]
      omega
    rw [if_pos hok, hadded, registerWatchedLib, if_neg hroom]
    refine ⟨h.inOrder.snoc hid hnext hnew, fun _ => ?_, fun _ => ?_, fun _ => ?_⟩
    · show (s.loader.nextModId + 1).toNat = _
      have hone : (1 : U32).toNat = 1 := rfl
      rw [BitVec.toNat_add, hone, List.length_append, List.length_singleton]
      omega
    · intro g hg
      show g.1 ∈ (s.loader.watched ++ [(path, s.loader.nextModId)]).map (·.1)
      rw [List.map_append, List.mem_append]
      rcases List.mem_append.mp hg with hold | hnow
      · exact Or.inl (h.watched hrun g hold)
      · rw [List.mem_singleton.mp hnow]
        exact Or.inr List.mem_cons_self
    · show (s.loader.watched ++ [(path, s.loader.nextModId)]).length ≤ _
      rw [List.length_append, List.length_append, List.length_singleton]
      omega

/-! The discovery. -/

theorem seenLibs_nodup (binName : CStr) (lines : List CStr) : (seenLibs binName lines []).Nodup := by
  apply seenLibs_inv _ lines List.nodup_nil
  intro seen path hnodup _ hnew
  rw [List.nodup_append']
  exact ⟨hnodup, List.nodup_singleton path, List.disjoint_singleton.mpr hnew⟩

/-- Each path is tried once, and the watch list has the length of the record. -/
theorem registerLibsOf_inv {fuel : Nat} {libs : Nat → LibEnv} (paths : List CStr) (i : Nat) {s : RegistryState}
    (h : s.Inv) (hcounted : s.loader.Counted) (hnodup : paths.Nodup) (hnew : ∀ path ∈ paths, path ∉ s.given.map (·.1)) :
    (registerLibsOf fuel libs paths i s).Inv ∧ (registerLibsOf fuel libs paths i s).loader.Counted := by
  induction paths generalizing i s with
  | nil => exact ⟨h, hcounted⟩
  | cons path rest ih =>
    rw [registerLibsOf]
    split
    · exact ⟨h, hcounted⟩
    next hgo =>
      obtain ⟨hrun, hnext⟩ := not_or.mp hgo
      rw [Bool.not_eq_true] at hrun
      rw [not_not] at hnext
      obtain ⟨hfirst, hrest⟩ := List.nodup_cons.mp hnodup
      refine ih (i + 1) (h.attempt hrun hnext (hnew path List.mem_cons_self)) (addLibrary_counted hcounted hnext) hrest ?_
      intro p hp
      have hold : p ∉ s.given.map (·.1) := hnew p (List.mem_cons_of_mem _ hp)
      rw [RegistryState.attempt]
      dsimp only
      split
      · rw [List.map_append, List.mem_append, not_or]
        refine ⟨hold, ?_⟩
        intro hsame
        rw [List.mem_singleton.mp hsame] at hp
        exact hfirst hp
      · exact hold

/-- The id taken from the watch list is the one the discovery came to. -/
theorem handOver_inv {env : LoaderEnv} {s : RegistryState} (h : s.Inv) (hcounted : s.loader.Counted) :
    RegistryState.Inv ⟨handOver env s.loader, s.given⟩ := by
  rw [handOver]
  split
  · exact h
  next hgo =>
    have hrun : s.loader.halted = false := Bool.not_eq_true _ ▸ hgo
    have hsame : { s.loader with nextModId := moduleDynamicBase + BitVec.ofNat 32 s.loader.watched.length } = s.loader := by
      rw [← hcounted.1]
    have hlength : s.loader.watched.length = s.given.length := by
      have hnext := h.next hrun
      have hle := hcounted.2
      rw [hcounted.1] at hnext
      simp only [moduleDynamicBase, maxWatchedLibs] at hnext hle
      bv_omega
    dsimp only
    rw [hsame]
    split
    · exact h
    next path _ =>
      rw [registerWatchedLib]
      split
      · exact h
      · refine ⟨h.inOrder, h.next, ?_, ?_⟩
        · intro _ g hg
          show g.1 ∈ (s.loader.watched ++ [(path, moduleMain)]).map (·.1)
          rw [List.map_append]
          exact List.mem_append_left _ (h.watched hrun g hg)
        · intro _
          show (s.loader.watched ++ [(path, moduleMain)]).length ≤ s.given.length + 1
          rw [List.length_append, List.length_singleton, hlength]

theorem registryStart_inv (env : LoaderEnv) : (registryStart env).Inv := by
  obtain ⟨hnext, hwatched⟩ := populateLibc_nextModId env
  obtain ⟨hnext', hwatched'⟩ := populateLd_frame env (populateLibc env (populateMain env))
  rw [registryStart]
  split
  · -- an exit before the discovery
    exact RegistryState.inv_empty fun hrun => Bool.noConfusion hrun
  · have hempty : RegistryState.Inv ⟨populateLd env (populateLibc env (populateMain env)), []⟩ :=
      RegistryState.inv_empty fun _ => ⟨hnext'.trans hnext, hwatched'.trans hwatched⟩
    obtain ⟨hinv, hcounted⟩ := registerLibsOf_inv (seenLibs env.binName (mapsLines 512 env.discoverMaps) []) 0 hempty
      (populateLd_counted env) (seenLibs_nodup _ _) (fun _ _ => List.not_mem_nil)
    exact handOver_inv hinv hcounted

/-! The scans. -/

/-- A scan tries only paths that are not watched, and so have no id. -/
theorem dlopenScanLoopOf_inv {env : LoaderEnv} {libs : Nat → LibEnv} (lines : List CStr) (i : Nat) {s : RegistryState}
    (h : s.Inv) : (dlopenScanLoopOf env libs lines i s).Inv := by
  induction lines generalizing i s with
  | nil => exact h
  | cons line rest ih =>
    rw [dlopenScanLoopOf]
    split
    · exact h
    next hgo =>
      have hrun : s.loader.halted = false := Bool.not_eq_true _ ▸ hgo
      apply ih
      cases htries : scanTries env s.loader line with
      | none => exact h
      | some path =>
        obtain ⟨hnew, hnext⟩ := scanTries_some htries
        apply h.attempt hrun hnext
        intro hgiven
        obtain ⟨g, hg, rfl⟩ := List.mem_map.mp hgiven
        exact hnew (h.watched hrun g hg)

theorem registryRun_inv (env : LoaderEnv) (scans : List ScanEnv) : (registryRun env scans).Inv :=
  run_inv (fun _ _ h => dlopenScanLoopOf_inv _ _ h) (registryStart_inv env) scans

/-! The registry. -/

/-- Whose policy map it is. -/
inductive PolicyOwner where
  | main
  | libc
  | library (path : CStr)
  deriving DecidableEq, Repr

/-- The registrations before the discovery. -/
def startRegistrations (env : LoaderEnv) : List (U32 × PolicyOwner) :=
  let st := populateLibc env (populateMain env)
  if st.halted ∨ ¬ env.mainPolicyOk then []
  else if env.surfaceReport ∨ st.libcBase = 0 ∨ ¬ env.libcPolicyCreated ∨ ¬ env.libcPolicyRegistered then
    [(moduleMain, .main)]
  else [(moduleMain, .main), (moduleLibc, .libc)]

/-- The successful updates of `policy_registry` over a run, in order. -/
def registrations (env : LoaderEnv) (scans : List ScanEnv) : List (U32 × PolicyOwner) :=
  startRegistrations env ++ (registryRun env scans).given.map fun g => (g.2, .library g.1)

/-- `policy_registry` after these updates. -/
def registryAfter (updates : List (U32 × PolicyOwner)) : U32 → Option PolicyOwner := writeAll (fun _ => none) updates

/-- No id is registered twice, main's and libc's included. -/
theorem registrations_nodup (env : LoaderEnv) (scans : List ScanEnv) :
    ((registrations env scans).map (·.1)).Nodup := by
  have horder := (registryRun_inv env scans).inOrder
  have hstart : ((startRegistrations env).map (·.1)).Nodup ∧ ∀ w ∈ startRegistrations env, w.1 < moduleDynamicBase := by
    rw [startRegistrations]
    split
    · exact ⟨List.nodup_nil, fun w hw => absurd hw List.not_mem_nil⟩
    · split
      · exact ⟨List.nodup_singleton _, by decide⟩
      · exact ⟨by decide, by decide⟩
  have hids : ((registryRun env scans).given.map fun g => (g.2, PolicyOwner.library g.1)).map (·.1) =
      (registryRun env scans).given.map (·.2) := by
    rw [List.map_map]
    rfl
  rw [registrations, List.map_append, hids, List.nodup_append']
  refine ⟨hstart.1, horder.ids_nodup, ?_⟩
  intro id hlow hgiven
  obtain ⟨w, hw, rfl⟩ := List.mem_map.mp hlow
  obtain ⟨g, hg, heq⟩ := List.mem_map.mp hgiven
  have hge := (horder.id_mem hg).1
  rw [heq] at hge
  exact absurd (hstart.2 w hw) (BitVec.not_lt.mpr hge)

/-- **Dynamic module ids.** In every run of the loader, on any maps texts and with any outcomes of
    its map operations: a library's path has one id and an id one path, the ids lie in
    `[MODULE_DYNAMIC_BASE, 64)`, and what is registered under an id stays registered there. -/
theorem dynamic_ids (env : LoaderEnv) (scans : List ScanEnv) :
    (∀ g ∈ (registryRun env scans).given, ∀ g' ∈ (registryRun env scans).given, g.1 = g'.1 ↔ g.2 = g'.2) ∧
      (∀ g ∈ (registryRun env scans).given, moduleDynamicBase ≤ g.2 ∧ g.2 < 64) ∧
      ∀ before after, registrations env scans = before ++ after → ∀ id owner,
        registryAfter before id = some owner → registryAfter (registrations env scans) id = some owner := by
  have horder := (registryRun_inv env scans).inOrder
  refine ⟨?_, fun g hg => horder.id_mem hg, ?_⟩
  · intro g hg g' hg'
    constructor
    · intro hpath
      rw [List.inj_on_of_nodup_map horder.once hg hg' hpath]
    · intro hid
      rw [List.inj_on_of_nodup_map horder.ids_nodup hg hg' hid]
  · intro before after hsplit id owner hbefore
    have hnodup := registrations_nodup env scans
    rw [hsplit] at hnodup ⊢
    exact writeAll_append_of_nodup hnodup hbefore

/-- A start without libc that finds two libraries; the policy map of the first is not created. -/
def twoLibsEnv : LoaderEnv :=
  { staticEnv with
    discoverMaps := some (ascii "1000-2000 r-xp 0 0:0 1 /a.so\n3000-4000 r-xp 0 0:0 2 /b.so\n")
    libs := fun i => ⟨i ≠ 0, true, none⟩ }

-- the library that failed gets the next id in the first scan, and no other in the second
example :
    (registryRun twoLibsEnv (List.replicate 2 ⟨twoLibsEnv.discoverMaps, fun _ => ⟨true, true, none⟩⟩)).given =
      [(ascii "/b.so", 3), (ascii "/a.so", 4)] := by
  decide +kernel

end SentinelStack.Cc
