import SentinelStack.Vmi.NpfHandler

/- The HEKI server (`heki_server.c`): a client registers a guest-virtual range
   and gets a nonce back when it is protected.

   The range is translated at its first byte and registered as one physical
   range. So a nonzero reply covers the bytes of the range that lie on the page
   the walk of its first byte ends in, be it 4 KB, 2 MB or 1 GB
   (`registered_page_covered`). Without a kernel page table the server mocks
   success and registers nothing. -/
namespace SentinelStack.Vmi
open SentinelStack.Lib

def mockMagic : U32 := 0x4D4F434B
def hekiRegistrationSize : Nat := 49

structure HekiRegistration where
  magic : U32
  gva : U64
  size : U32
  isCritical : U8
  name : List U8
  deriving DecidableEq, Repr

/-- The packed record in the bytes one `read` returned: all 49 of them, or it is refused. -/
def readRegistration (payload : List U8) : Option HekiRegistration :=
  if payload.length = hekiRegistrationSize then
    some {
      magic := (leWord (payload.take 4)).setWidth 32
      gva := leWord ((payload.drop 4).take 8)
      size := (leWord ((payload.drop 12).take 4)).setWidth 32
      isCritical := (payload.drop 16).headD 0
      name := payload.drop 17 }
  else none

/-- What a client's request can change. -/
structure HekiState where
  guard : GuardState
  hekiActiveNonce : U32
  auth : AuthState

/-- The active nonce after a success, drawn on the first one. -/
def nonceOr (drawn active : U32) : U32 := if active = 0 then drawn else active

/-- `rand() ^ 0x48454B49`, and 1 where that is 0. -/
def drawNonce (rand : U32) : U32 := if rand ^^^ hekiMagic = 0 then 1 else rand ^^^ hekiMagic

/-- The answer to a well-formed registration, and the state after it; `none` when the
    registration does not return. -/
def registerMap (host : Host) (s : VmiSession) (rand : U32) (st : HekiState) (reg : HekiRegistration) :
    Option (U32 × HekiState) :=
  if s.kernelPgd = 0 then
    -- mocked success, with a fixed nonce
    let nonce := nonceOr 3039 st.hekiActiveNonce
    some (nonce, { st with hekiActiveNonce := nonce })
  else
    match vmiGvaToGpa host s s.kernelPgd reg.gva with
    | none => some (0, st)
    | some gpa =>
      match nptGuardProtectDynamic host s st.guard gpa (reg.size.setWidth 64) (reg.isCritical ≠ 0) (cstrOf reg.name) with
      | none => none
      | some (false, guard) => some (0, { st with guard := guard })
      | some (true, guard) =>
        let nonce := nonceOr (drawNonce rand) st.hekiActiveNonce
        some (nonce, { st with guard := guard, hekiActiveNonce := nonce })

/-- `handle_heki_client` on the bytes it read: the response written back, and the state after it. -/
def handleHekiClient (host : Host) (s : VmiSession) (rand : U32) (st : HekiState) (payload : List U8) :
    Option (U32 × HekiState) :=
  match readRegistration payload with
  | none => some (0, st)
  | some reg =>
    if reg.magic = hekiMagic then registerMap host s rand st reg
    else if reg.magic = mockMagic then
      some (1, { st with
        auth := npfHandlerCpuidIntercept st.auth st.hekiActiveNonce hekiMagic (reg.gva.setWidth 32) 0x12345678 })
    else some (0, st)

/-- `g` is in a registered region that has a baseline. -/
def Guarded (gs : GuardState) (g : U64) : Prop :=
  ∃ r ∈ gs.guardRegions.regions, r.baselineValid = true ∧ r.Contains g

instance (gs : GuardState) (g : U64) : Decidable (Guarded gs g) := inferInstanceAs (Decidable (∃ r ∈ _, _ ∧ _))

/-- A successful registration leaves its range in the table, with a baseline. -/
theorem protectDynamic_guarded {host : Host} {s : VmiSession} {gs gs' : GuardState} {gpa size : U64} {critical : Bool}
    {name : CStr} (h : nptGuardProtectDynamic host s gs gpa size critical name = some (true, gs')) {g : U64}
    (hlo : gpa.toNat ≤ g.toNat) (hhi : g.toNat < gpa.toNat + size.toNat) : Guarded gs' g := by
  rcases protectDynamic_cases h with ⟨-, hok, -⟩ | ⟨henters, ⟨-, hok, -⟩ | ⟨baselined, pages, hsnap, -, -, rfl⟩⟩
  · cases hok
  · cases hok
  · obtain ⟨hash, hbaselined⟩ := snapshotGuardRegion_some hsnap
    refine ⟨baselined, ?_, ?_, ?_⟩
    · exact List.mem_append_right _ List.mem_cons_self
    · rw [hbaselined]
    · rw [hbaselined]
      exact ⟨hlo, hhi⟩

/-- **A nonzero reply covers the page of the range's first byte.** With a kernel page table,
    every byte of the range on the page that the walk of `gva` ends in translates into a
    registered region with a baseline; without one, the reply comes with no registration. -/
theorem registered_page_covered {host : Host} {s : VmiSession} {rand : U32} {st st' : HekiState} {payload : List U8}
    {reg : HekiRegistration} {nonce : U32} (hread : readRegistration payload = some reg)
    (hmagic : reg.magic = hekiMagic) (hreply : handleHekiClient host s rand st payload = some (nonce, st'))
    (hnonce : nonce ≠ 0) :
    (s.kernelPgd ≠ 0 → ∃ page entry, walk host s s.kernelPgd reg.gva = some (page, entry) ∧
      ∀ i < reg.size.toNat, SamePage page reg.gva (reg.gva + BitVec.ofNat 64 i) →
        ∀ g, vmiGvaToGpa host s s.kernelPgd (reg.gva + BitVec.ofNat 64 i) = some g → Guarded st'.guard g) ∧
    (s.kernelPgd = 0 → st'.guard = st.guard) := by
  have hreg : registerMap host s rand st reg = some (nonce, st') := by
    rw [handleHekiClient, hread] at hreply
    simpa only [hmagic, if_true] using hreply
  unfold registerMap at hreg
  constructor
  · intro hpgd
    rw [if_neg hpgd] at hreg
    split at hreg
    · cases hreg; exact absurd rfl hnonce
    next gpa hgpa =>
    -- the translation ended in some page, and the registration went through
    obtain ⟨⟨page, entry⟩, hwalk, _⟩ := Option.map_eq_some_iff.mp hgpa
    refine ⟨page, entry, hwalk, ?_⟩
    split at hreg
    · cases hreg
    · cases hreg; exact absurd rfl hnonce
    next guard hprotect =>
    cases hreg
    intro i hi hsame g hg
    obtain ⟨g', hg', hoff⟩ := vmiGvaToGpa_samePage hwalk hgpa (hi.trans reg.size.isLt) hsame
    rw [hg, Option.some.injEq] at hg'
    subst hg'
    refine protectDynamic_guarded hprotect (by omega) ?_
    rw [BitVec.toNat_setWidth_of_le (by decide)]
    omega
  · intro hpgd
    rw [if_pos hpgd] at hreg
    cases hreg
    rfl

/-- Guest memory that maps its first gigabyte onto itself, through page tables at 0 and at
    0x4000 that share the page-directory table at 0x1000. -/
def identityHost : Host where
  ownMemory := fun a => if a = 0 ∨ a = 0x4000 then 0x01 else if a = 1 ∨ a = 0x4001 then 0x10 else if a = 0x1000 then 0x81 else 0
  qemuMemory := fun _ => 0
  processVmReadv := fun _ _ _ => .failed
  devMem := none

/-- A session over 64 KB of local guest memory, with the given kernel page table. -/
def localSession (kernelPgd : U64) : VmiSession where
  memslots := [⟨0, 0x10000, 0, 0, 0⟩]
  qemuPid := 0
  syscallTableGpa := 0
  syscallTableGva := 0
  nptArmed := false
  kaslrOffset := 0
  kernelPgd := kernelPgd

def emptyHeki : HekiState where
  guard := ⟨⟨[], by decide⟩, [], false, 0, []⟩
  hekiActiveNonce := 0
  auth := npfHandlerClearAuthorized

/-- A critical map of 8 bytes at 0x2000, named `m`. -/
def mapPayload : List U8 :=
  [0x49, 0x4B, 0x45, 0x48] ++ [0x00, 0x20, 0, 0, 0, 0, 0, 0] ++ [8, 0, 0, 0] ++ [1] ++ 0x6D :: List.replicate 31 0

def mapRegistration : HekiRegistration := ⟨hekiMagic, 0x2000, 8, 1, 0x6D :: List.replicate 31 0⟩

/-- A nonce is handed out for a range that no region guards: there is no kernel page table
    yet, and the server mocks success. -/
theorem nonce_without_guard :
    ¬ ∀ (host : Host) (s : VmiSession) (rand : U32) (st st' : HekiState) (payload : List U8)
        (reg : HekiRegistration) (nonce : U32),
      readRegistration payload = some reg → reg.magic = hekiMagic →
      handleHekiClient host s rand st payload = some (nonce, st') → nonce ≠ 0 →
      ∀ i < reg.size.toNat, ∀ g,
        vmiGvaToGpa host s s.kernelPgd (reg.gva + BitVec.ofNat 64 i) = some g → Guarded st'.guard g := by
  intro h
  have hguarded := h identityHost (localSession 0) 0 emptyHeki { emptyHeki with hekiActiveNonce := 3039 } mapPayload
    mapRegistration 3039 (by decide +kernel) rfl rfl (by decide) 0 (by decide) 0x2000 (by decide +kernel)
  exact absurd hguarded (by decide)

theorem registered_page_covered_map :
    ∃ st', handleHekiClient identityHost (localSession 0x4000) 0 emptyHeki mapPayload = some (0x48454B49, st') ∧
      Guarded st'.guard 0x2007 := by
  have hreply : ∃ st', handleHekiClient identityHost (localSession 0x4000) 0 emptyHeki mapPayload =
      some (0x48454B49, st') := ⟨_, rfl⟩
  obtain ⟨st', hst⟩ := hreply
  refine ⟨st', hst, ?_⟩
  have hread : readRegistration mapPayload = some mapRegistration := by decide +kernel
  obtain ⟨page, entry, hwalk, hcover⟩ := (registered_page_covered hread rfl hst (by decide)).1 (by decide)
  have hpage : walk identityHost (localSession 0x4000) 0x4000 0x2000 = some (.page1G, 0x81) := by decide +kernel
  have hsame : page = .page1G := by
    have := hwalk.symm.trans hpage
    rw [Option.some.injEq, Prod.mk.injEq] at this
    exact this.1
  exact hcover 7 (by decide) (by rw [hsame]; decide) 0x2007 (by decide +kernel)

end SentinelStack.Vmi
