import SentinelStack.Vmi.GuardPoll
import SentinelStack.Vmi.Heki

/- The drawbridge: HEKI registrations hand out a nonce, a CPUID exit with the
   nonce announces a map update, and the next hostile write is let through
   (`heki_server.c`, `cpuid_handler.c`, `npf_handler.c`).

   `Drawbridge` adds four logs to the state of the three files: the nonces handed
   out, the one behind the pending authorisation, those behind the writes let
   through, and the regions that came through HEKI. Over every run of the three
   kinds of events:
   1. `nonces_single_use_iff` — there is one nonce; it is used once exactly where
      no registration succeeds after another and no write is let through after
      another;
   2. `drawbridge_in_scope_iff` — what is let through is in a HEKI region exactly
      where no hostile write elsewhere arrives while an authorisation is pending. -/
namespace SentinelStack.Vmi
open SentinelStack.Lib

/-! The authorised path of the fault handler. -/

/-- A write that `npf_handler_process` neither ignores nor lets through by its class. -/
def Hostile (s : VmiSession) (allowPatch : Option CStr) (regions : List GuardRegion) (gpa : U64) (writeAccess : Bool) :
    Prop :=
  writeAccess = true ∧
    (classifyFault s allowPatch regions gpa writeAccess).classification ≠ .ignore ∧
    (classifyFault s allowPatch regions gpa writeAccess).isCollateral = false ∧
    (classifyFault s allowPatch regions gpa writeAccess).classification ≠ .legitimate

instance (s : VmiSession) (allowPatch : Option CStr) (regions : List GuardRegion) (gpa : U64) (writeAccess : Bool) :
    Decidable (Hostile s allowPatch regions gpa writeAccess) := inferInstanceAs (Decidable (_ ∧ _))

/-- An authorisation for the kernel's address space is pending. -/
def Pending (s : VmiSession) (auth : AuthState) : Prop :=
  npfHandlerIsAuthorized auth s.kernelPgd identifyMaliciousPid = true

instance (s : VmiSession) (auth : AuthState) : Decidable (Pending s auth) := inferInstanceAs (Decidable (_ = _))

/-- The three ways through the handler: nothing, the drawbridge, a signal. -/
theorem npfHandlerProcess_eq (s : VmiSession) (auth : AuthState) (allowPatch : Option CStr) (regions : List GuardRegion)
    (gpa : U64) (writeAccess : Bool) :
    npfHandlerProcess s auth allowPatch regions gpa writeAccess =
      if ¬ Hostile s allowPatch regions gpa writeAccess then (none, auth)
      else if Pending s auth then (none, npfHandlerClearAuthorized)
      else (some (hostileSignal s gpa (classifyFault s allowPatch regions gpa writeAccess)), auth) := by
  unfold npfHandlerProcess Hostile
  cases writeAccess with
  | false => simp
  | true =>
    by_cases hignore : (classifyFault s allowPatch regions gpa true).classification = .ignore
    · simp [hignore]
    · by_cases hcollateral : (classifyFault s allowPatch regions gpa true).isCollateral = true
      · simp [hignore, hcollateral]
      · by_cases hlegitimate : (classifyFault s allowPatch regions gpa true).classification = .legitimate
        · simp [hcollateral, hlegitimate]
        · by_cases hpending : Pending s auth
          · have hauth : npfHandlerIsAuthorized auth s.kernelPgd identifyMaliciousPid = true := hpending
            simp [hignore, hcollateral, hlegitimate, hpending, hauth]
          · have hauth : ¬ npfHandlerIsAuthorized auth s.kernelPgd identifyMaliciousPid = true := hpending
            simp [hignore, hcollateral, hlegitimate, hpending, hauth]

theorem pending_iff (s : VmiSession) (auth : AuthState) :
    Pending s auth ↔ s.kernelPgd ≠ 0 ∧ auth.authorizedCr3 = s.kernelPgd := by
  simp [Pending, npfHandlerIsAuthorized, identifyMaliciousPid]

/-! Events. -/

inductive DrawbridgeEvent where
  | client (host : Host) (rand : U32) (payload : List U8)
  | cpuid (eax ecx : U32) (cr3 : U64)
  | fault (gpa : U64) (writeAccess : Bool) (allowPatch : Option CStr)

/-- The message asks for a registration. -/
def IsRegistration (payload : List U8) : Prop := (readRegistration payload).any (·.magic = hekiMagic) = true

instance (payload : List U8) : Decidable (IsRegistration payload) := inferInstanceAs (Decidable (_ = _))

/-- The nonce of the CPUID exit that a message mocks. -/
def mockedNonce (payload : List U8) : Option U32 :=
  (readRegistration payload).bind fun reg => if reg.magic = mockMagic then some (reg.gva.setWidth 32) else none

/-- The nonce behind the pending authorisation, after a CPUID exit. -/
def grant (active granted eax ecx : U32) : U32 :=
  if eax = hekiMagic ∧ ecx = active ∧ active ≠ 0 then active else granted

structure Drawbridge where
  heki : HekiState
  /-- the nonces that registrations were answered with -/
  issued : List U32
  /-- the nonce that the last authorisation was given for -/
  granted : U32
  /-- the nonces behind the writes let through -/
  spent : List U32
  /-- the regions registered through HEKI -/
  hekiRegions : List GuardRegion

def Drawbridge.regions (w : Drawbridge) : List GuardRegion := w.heki.guard.guardRegions.regions

/-- The event is a write that takes the authorised path. -/
def LetsThrough (s : VmiSession) (w : Drawbridge) : DrawbridgeEvent → Prop
  | .fault gpa writeAccess allowPatch => Hostile s allowPatch w.regions gpa writeAccess ∧ Pending s w.heki.auth
  | _ => False

instance (s : VmiSession) (w : Drawbridge) (e : DrawbridgeEvent) : Decidable (LetsThrough s w e) :=
  match e with
  | .fault .. => inferInstanceAs (Decidable (_ ∧ _))
  | .client .. => inferInstanceAs (Decidable False)
  | .cpuid .. => inferInstanceAs (Decidable False)

/-- The nonce that the event hands out, and the regions it registers. -/
def issues (s : VmiSession) (w : Drawbridge) : DrawbridgeEvent → Option (U32 × List GuardRegion)
  | .client host rand payload =>
    ((handleHekiClient host s rand w.heki payload).filter fun r => IsRegistration payload ∧ r.1 ≠ 0).map fun r =>
      (r.1, r.2.guard.guardRegions.regions.drop w.regions.length)
  | _ => none

/-- The state of the three files after an event. A registration that does not return is followed
    by nothing. -/
def hekiStep (s : VmiSession) (st : HekiState) : DrawbridgeEvent → HekiState
  | .client host rand payload => ((handleHekiClient host s rand st payload).map (·.2)).getD st
  | .cpuid eax ecx cr3 => { st with auth := npfHandlerCpuidIntercept st.auth st.hekiActiveNonce eax ecx cr3 }
  | .fault gpa writeAccess allowPatch =>
    { st with auth := (npfHandlerProcess s st.auth allowPatch st.guard.guardRegions.regions gpa writeAccess).2 }

/-- The nonce behind the authorisation after an event. -/
def grants (w : Drawbridge) : DrawbridgeEvent → U32
  | .client _ _ payload =>
    ((mockedNonce payload).map (grant w.heki.hekiActiveNonce w.granted hekiMagic)).getD w.granted
  | .cpuid eax ecx _ => grant w.heki.hekiActiveNonce w.granted eax ecx
  | .fault .. => w.granted

def Drawbridge.step (s : VmiSession) (w : Drawbridge) (e : DrawbridgeEvent) : Drawbridge where
  heki := hekiStep s w.heki e
  issued := w.issued ++ ((issues s w e).map (·.1)).toList
  granted := grants w e
  spent := if LetsThrough s w e then w.spent ++ [w.granted] else w.spent
  hekiRegions := w.hekiRegions ++ ((issues s w e).map (·.2)).getD []

/-- Before the first event: no nonce, nothing authorised, and the regions there are. -/
def opened (gs : GuardState) : Drawbridge := ⟨⟨gs, 0, npfHandlerClearAuthorized⟩, [], 0, [], []⟩

/-! Nonces. -/

theorem drawNonce_ne (rand : U32) : drawNonce rand ≠ 0 := by
  unfold drawNonce
  split
  · decide
  next h => exact h

/-- What a message can do: a registration succeeds, or the nonce stays and the authorisation is
    that of the mocked exit, if it mocks one. -/
theorem handleHekiClient_cases {host : Host} {s : VmiSession} {rand : U32} {st st' : HekiState} {payload : List U8}
    {response : U32} (h : handleHekiClient host s rand st payload = some (response, st')) :
    (IsRegistration payload ∧ mockedNonce payload = none ∧ st'.auth = st.auth ∧ st'.hekiActiveNonce = response ∧
        ∃ drawn, drawn ≠ 0 ∧ response = nonceOr drawn st.hekiActiveNonce) ∨
      (¬ (IsRegistration payload ∧ response ≠ 0) ∧ st'.hekiActiveNonce = st.hekiActiveNonce ∧
        st'.auth = ((mockedNonce payload).map fun ecx =>
          npfHandlerCpuidIntercept st.auth st.hekiActiveNonce hekiMagic ecx 0x12345678).getD st.auth) := by
  unfold handleHekiClient at h
  cases hread : readRegistration payload with
  | none =>
    rw [hread] at h
    cases h
    exact Or.inr ⟨by simp [IsRegistration, hread], rfl, by simp [mockedNonce, hread]⟩
  | some reg =>
    rw [hread] at h
    dsimp only at h
    by_cases hheki : reg.magic = hekiMagic
    · have hisreg : IsRegistration payload := by simp [IsRegistration, hread, hheki]
      have hmocked : mockedNonce payload = none := by simp [mockedNonce, hread, hheki, hekiMagic, mockMagic]
      rw [if_pos hheki, registerMap] at h
      -- without a page table the registration is mocked, and answered with a fixed nonce
      split at h
      · cases h
        exact Or.inl ⟨hisreg, hmocked, rfl, rfl, 3039, by decide, rfl⟩
      · split at h
        · cases h
          exact Or.inr ⟨by simp, rfl, by rw [hmocked]; rfl⟩
        · split at h
          · cases h
          · cases h
            exact Or.inr ⟨by simp, rfl, by rw [hmocked]; rfl⟩
          · cases h
            exact Or.inl ⟨hisreg, hmocked, rfl, rfl, drawNonce rand, drawNonce_ne rand, rfl⟩
    · have hnotreg : ¬ IsRegistration payload := by simp [IsRegistration, hread, hheki]
      rw [if_neg hheki] at h
      split at h
      next hmock =>
        cases h
        exact Or.inr ⟨fun h => hnotreg h.1, rfl, by simp [mockedNonce, hread, hmock]⟩
      next hmock =>
        cases h
        exact Or.inr ⟨fun h => hnotreg h.1, rfl, by simp [mockedNonce, hread, hmock]⟩

/-- Every nonce in the logs is the active one. -/
structure Drawbridge.OneNonce (w : Drawbridge) : Prop where
  issued : ∀ n ∈ w.issued, n = w.heki.hekiActiveNonce ∧ n ≠ 0
  spent : ∀ n ∈ w.spent, n = w.heki.hekiActiveNonce ∧ n ≠ 0
  granted : w.heki.auth.authorizedCr3 ≠ 0 → w.granted = w.heki.hekiActiveNonce ∧ w.granted ≠ 0

theorem opened_oneNonce (gs : GuardState) : (opened gs).OneNonce where
  issued := by simp [opened]
  spent := by simp [opened]
  granted := by simp [opened, npfHandlerClearAuthorized]

theorem npfHandlerCpuidIntercept_eq (auth : AuthState) (active eax ecx : U32) (cr3 : U64) :
    npfHandlerCpuidIntercept auth active eax ecx cr3 =
      if eax = hekiMagic ∧ ecx = active ∧ active ≠ 0 then ⟨cr3, identifyMaliciousPid⟩ else auth := by
  unfold npfHandlerCpuidIntercept
  split
  next heax => simp only [heax, true_and]
  next heax => rw [if_neg fun h => heax h.1]

/-- A CPUID exit that changes the authorisation grants the active nonce. -/
theorem intercept_granted {auth : AuthState} {active granted eax ecx : U32} {cr3 : U64}
    (h : auth.authorizedCr3 ≠ 0 → granted = active ∧ granted ≠ 0) :
    (npfHandlerCpuidIntercept auth active eax ecx cr3).authorizedCr3 ≠ 0 →
      grant active granted eax ecx = active ∧ grant active granted eax ecx ≠ 0 := by
  rw [npfHandlerCpuidIntercept_eq, grant]
  split
  next haccepted => exact fun _ => ⟨rfl, haccepted.2.2⟩
  · exact h

theorem mockedNonce_of_no_return {host : Host} {s : VmiSession} {rand : U32} {st : HekiState} {payload : List U8}
    (h : handleHekiClient host s rand st payload = none) : mockedNonce payload = none := by
  unfold handleHekiClient at h
  unfold mockedNonce
  cases hread : readRegistration payload with
  | none => rfl
  | some reg =>
    rw [hread] at h
    dsimp only at h
    split at h
    next hheki =>
      rw [Option.bind_some, hheki]
      rfl
    · split at h <;> cases h

/-- The nonce, once drawn, stays. -/
theorem issues_nonce {s : VmiSession} {w : Drawbridge} {e : DrawbridgeEvent} {n : U32} {rs : List GuardRegion}
    (h : issues s w e = some (n, rs)) :
    n ≠ 0 ∧ (hekiStep s w.heki e).hekiActiveNonce = n ∧ (hekiStep s w.heki e).auth = w.heki.auth ∧ grants w e = w.granted ∧
      (w.heki.hekiActiveNonce ≠ 0 → n = w.heki.hekiActiveNonce) := by
  cases e with
  | cpuid eax ecx cr3 => cases h
  | fault gpa writeAccess allowPatch => cases h
  | client host rand payload =>
    obtain ⟨⟨response, st⟩, hfilter, heq⟩ := Option.map_eq_some_iff.mp h
    obtain ⟨hreply, hissued⟩ := Option.filter_eq_some_iff.mp hfilter
    obtain ⟨rfl, -⟩ := Prod.mk.inj heq
    have hissued := of_decide_eq_true hissued
    rcases handleHekiClient_cases hreply with ⟨-, hmocked, hauth, hactive, drawn, -, hnonce⟩ | ⟨hnot, -⟩
    · rw [hekiStep, hreply, grants, hmocked]
      refine ⟨hissued.2, hactive, hauth, rfl, ?_⟩
      intro hne
      rw [hnonce, nonceOr, if_neg hne]
    · exact absurd hissued hnot

/-- An event that hands out no nonce leaves the active one. -/
theorem no_issue_nonce {s : VmiSession} {w : Drawbridge} {e : DrawbridgeEvent} (h : issues s w e = none) :
    (hekiStep s w.heki e).hekiActiveNonce = w.heki.hekiActiveNonce ∧
      ((w.heki.auth.authorizedCr3 ≠ 0 → w.granted = w.heki.hekiActiveNonce ∧ w.granted ≠ 0) →
        (hekiStep s w.heki e).auth.authorizedCr3 ≠ 0 → grants w e = w.heki.hekiActiveNonce ∧ grants w e ≠ 0) := by
  cases e with
  | cpuid eax ecx cr3 => exact ⟨rfl, intercept_granted⟩
  | fault gpa writeAccess allowPatch =>
    refine ⟨rfl, ?_⟩
    intro hgranted hcr3
    refine hgranted ?_
    intro hzero
    apply hcr3
    -- the handler clears an authorisation and gives none
    rw [hekiStep]
    dsimp only
    rw [npfHandlerProcess_eq]
    split
    · exact hzero
    · split
      · rfl
      · exact hzero
  | client host rand payload =>
    rw [hekiStep, grants]
    cases hreply : handleHekiClient host s rand w.heki payload with
    | none =>
      rw [mockedNonce_of_no_return hreply]
      exact ⟨rfl, id⟩
    | some reply =>
      obtain ⟨response, st⟩ := reply
      have hnot : ¬ (IsRegistration payload ∧ response ≠ 0) := by
        simpa [issues, hreply, Option.filter] using h
      rcases handleHekiClient_cases hreply with ⟨hisreg, -, -, -, drawn, hdrawn, hnonce⟩ | ⟨-, hactive, hauth⟩
      · -- a registration that succeeds hands out a nonce
        refine absurd ⟨hisreg, ?_⟩ hnot
        rw [hnonce, nonceOr]
        split
        · exact hdrawn
        next hne => exact hne
      · refine ⟨hactive, ?_⟩
        rw [Option.map_some, Option.getD_some, hauth]
        cases mockedNonce payload with
        | none => exact id
        | some ecx => exact intercept_granted

/-- A write that is let through was granted by the active nonce. -/
theorem letsThrough_granted {s : VmiSession} {w : Drawbridge} (h : w.OneNonce) {e : DrawbridgeEvent}
    (hthrough : LetsThrough s w e) : w.granted = w.heki.hekiActiveNonce ∧ w.granted ≠ 0 := by
  cases e with
  | client host rand payload => cases hthrough
  | cpuid eax ecx cr3 => cases hthrough
  | fault gpa writeAccess allowPatch =>
    obtain ⟨hpgd, hcr3⟩ := (pending_iff s w.heki.auth).mp hthrough.2
    exact h.granted (hcr3 ▸ hpgd)

theorem step_spent {s : VmiSession} {w : Drawbridge} (h : w.OneNonce) (e : DrawbridgeEvent) :
    ∀ n ∈ (w.step s e).spent, n = w.heki.hekiActiveNonce ∧ n ≠ 0 := by
  intro n hn
  rw [Drawbridge.step] at hn
  dsimp only at hn
  split at hn
  next hthrough =>
    rcases List.mem_append.mp hn with hn | hn
    · exact h.spent n hn
    · rw [List.mem_singleton.mp hn]
      exact letsThrough_granted h hthrough
  · exact h.spent n hn

theorem step_oneNonce {w : Drawbridge} (h : w.OneNonce) (s : VmiSession) (e : DrawbridgeEvent) :
    (w.step s e).OneNonce := by
  have hspent := step_spent (s := s) h e
  cases hissues : issues s w e with
  | none =>
    obtain ⟨hactive, hgranted⟩ := no_issue_nonce hissues
    have hsame : (w.step s e).heki.hekiActiveNonce = w.heki.hekiActiveNonce := hactive
    have hissued : (w.step s e).issued = w.issued := by rw [Drawbridge.step, hissues]; exact List.append_nil _
    refine ⟨?_, ?_, ?_⟩
    · rw [hissued, hsame]
      exact h.issued
    · rw [hsame]
      exact hspent
    · rw [hsame]
      exact hgranted h.granted
  | some issue =>
    obtain ⟨n, rs⟩ := issue
    obtain ⟨hne, hactive, hauth, hgrants, hstays⟩ := issues_nonce hissues
    have hnow : (w.step s e).heki.hekiActiveNonce = n := hactive
    have hissued : (w.step s e).issued = w.issued ++ [n] := by rw [Drawbridge.step, hissues]; rfl
    -- a nonce from before the event is the one it hands out
    have hold : ∀ m, m = w.heki.hekiActiveNonce ∧ m ≠ 0 → m = n ∧ m ≠ 0 := by
      rintro m ⟨rfl, hm⟩
      exact ⟨(hstays hm).symm, hm⟩
    refine ⟨?_, ?_, ?_⟩
    · rw [hissued, hnow, List.forall_mem_append]
      refine ⟨fun m hm => hold m (h.issued m hm), ?_⟩
      intro m hm
      rw [List.mem_singleton.mp hm]
      exact ⟨rfl, hne⟩
    · rw [hnow]
      exact fun m hm => hold m (hspent m hm)
    · intro hcr3
      have hcr3' : w.heki.auth.authorizedCr3 ≠ 0 := by
        rw [← hauth]
        exact hcr3
      rw [hnow]
      show grants w e = n ∧ grants w e ≠ 0
      rw [hgrants]
      exact hold _ (h.granted hcr3')

/-- No nonce was handed out twice, and none is behind two writes. -/
def Drawbridge.SingleUse (w : Drawbridge) : Prop := w.issued.Nodup ∧ w.spent.Nodup

/-- The event is the first to hand out a nonce, if it hands one out, and the first write let
    through, if it is one. -/
def FirstUse (s : VmiSession) (w : Drawbridge) (e : DrawbridgeEvent) : Prop :=
  ((issues s w e).isSome → w.issued = []) ∧ (LetsThrough s w e → w.spent = [])

theorem nodup_snoc_iff {l : List U32} {a : U32} (hl : l.Nodup) (hsame : ∀ n ∈ l, n = a) : (l ++ [a]).Nodup ↔ l = [] := by
  constructor
  · intro hnodup
    by_contra hne
    obtain ⟨n, hn⟩ := List.exists_mem_of_ne_nil l hne
    have hnot := (List.nodup_append.mp hnodup).2.2
    exact hnot n hn a (List.mem_singleton_self a) (hsame n hn)
  · rintro rfl
    exact List.nodup_singleton a

theorem step_issued_nodup_iff {w : Drawbridge} (h : w.OneNonce) (hnodup : w.issued.Nodup) (s : VmiSession)
    (e : DrawbridgeEvent) : (w.step s e).issued.Nodup ↔ ((issues s w e).isSome → w.issued = []) := by
  rw [Drawbridge.step]
  cases hissues : issues s w e with
  | none => simp [hnodup]
  | some issue =>
    obtain ⟨n, rs⟩ := issue
    obtain ⟨-, -, -, -, hstays⟩ := issues_nonce hissues
    have hsame : ∀ m ∈ w.issued, m = n := by
      intro m hm
      obtain ⟨hactive, hm0⟩ := h.issued m hm
      rw [hactive, hstays (hactive ▸ hm0)]
    simpa using nodup_snoc_iff hnodup hsame

theorem step_spent_nodup_iff {w : Drawbridge} (h : w.OneNonce) (hnodup : w.spent.Nodup) (s : VmiSession)
    (e : DrawbridgeEvent) : (w.step s e).spent.Nodup ↔ (LetsThrough s w e → w.spent = []) := by
  rw [Drawbridge.step]
  dsimp only
  split
  next hthrough =>
    have hsame : ∀ m ∈ w.spent, m = w.granted := by
      intro m hm
      rw [(h.spent m hm).1, (letsThrough_granted h hthrough).1]
    rw [nodup_snoc_iff hnodup hsame]
    exact ⟨fun hnil _ => hnil, fun himp => himp hthrough⟩
  next hthrough => exact iff_of_true hnodup fun hcontra => absurd hcontra hthrough

/-- **When the nonces are single-use.** Every nonce handed out and every nonce behind a write let
    through is the same one; so none is used twice exactly where each is used first. -/
theorem nonces_single_use_iff (s : VmiSession) (gs : GuardState) (es : List DrawbridgeEvent) :
    (∀ m ∈ (run (Drawbridge.step s) (opened gs) es).issued ++ (run (Drawbridge.step s) (opened gs) es).spent,
        m = (run (Drawbridge.step s) (opened gs) es).heki.hekiActiveNonce) ∧
      ((∀ pre, pre <+: es → (run (Drawbridge.step s) (opened gs) pre).SingleUse) ↔
        Along (Drawbridge.step s) (FirstUse s) (opened gs) es) := by
  constructor
  · have hone := run_inv (I := Drawbridge.OneNonce) (fun w e hw => step_oneNonce hw s e) (opened_oneNonce gs) es
    rw [List.forall_mem_append]
    exact ⟨fun m hm => (hone.issued m hm).1, fun m hm => (hone.spent m hm).1⟩
  · have hexact : (∀ pre, pre <+: es → (run (Drawbridge.step s) (opened gs) pre).OneNonce ∧
        (run (Drawbridge.step s) (opened gs) pre).SingleUse) ↔ Along (Drawbridge.step s) (FirstUse s) (opened gs) es := by
      refine Along.iff_inv (I := fun w => Drawbridge.OneNonce w ∧ Drawbridge.SingleUse w) ?_
        ⟨opened_oneNonce gs, List.nodup_nil, List.nodup_nil⟩
      rintro w e ⟨hone, hissued, hspent⟩
      rw [and_iff_right (step_oneNonce hone s e)]
      exact and_congr (step_issued_nodup_iff hone hissued s e) (step_spent_nodup_iff hone hspent s e)
    rw [← hexact]
    refine forall₂_congr fun pre _ => ?_
    have hone := run_inv (I := Drawbridge.OneNonce) (fun w e hw => step_oneNonce hw s e) (opened_oneNonce gs) pre
    exact (and_iff_right hone).symm

/-- A client registers a map twice, and uses its nonce twice. -/
def replayedRun : List DrawbridgeEvent :=
  [.client identityHost 0 mapPayload, .client identityHost 7 mapPayload,
    .cpuid hekiMagic 0x48454B49 0x4000, .fault 0x2000 true none,
    .cpuid hekiMagic 0x48454B49 0x4000, .fault 0x2000 true none]

/-- Both registrations are answered with one nonce, and it lets two writes through. -/
theorem nonce_replayed :
    (run (Drawbridge.step (localSession 0x4000)) (opened emptyHeki.guard) replayedRun).issued =
        [0x48454B49, 0x48454B49] ∧
      (run (Drawbridge.step (localSession 0x4000)) (opened emptyHeki.guard) replayedRun).spent =
        [0x48454B49, 0x48454B49] := by
  decide +kernel

/-! Scope. -/

/-- The handler takes the authorised path: it signals nothing and uses up the authorisation. -/
def Excuses (s : VmiSession) (w : Drawbridge) (gpa : U64) (writeAccess : Bool) (allowPatch : Option CStr) : Prop :=
  npfHandlerProcess s w.heki.auth allowPatch w.regions gpa writeAccess = (none, npfHandlerClearAuthorized) ∧
    w.heki.auth ≠ npfHandlerClearAuthorized

instance (s : VmiSession) (w : Drawbridge) (gpa : U64) (writeAccess : Bool) (allowPatch : Option CStr) :
    Decidable (Excuses s w gpa writeAccess allowPatch) := inferInstanceAs (Decidable (_ ∧ _))

/-- The address is in a region registered through HEKI, and in none of `armed`. -/
def InScope (armed : List GuardRegion) (w : Drawbridge) (gpa : U64) : Prop :=
  (∃ r ∈ w.hekiRegions, r.Contains gpa) ∧ ∀ r ∈ armed, ¬ r.Contains gpa

/-- The event excuses no write out of scope. -/
def ExcusesInScope (s : VmiSession) (armed : List GuardRegion) (w : Drawbridge) : DrawbridgeEvent → Prop
  | .fault gpa writeAccess allowPatch => Excuses s w gpa writeAccess allowPatch → InScope armed w gpa
  | _ => True

/-- The event is no hostile write out of scope that finds an authorisation pending. -/
def NoStrayWrite (s : VmiSession) (armed : List GuardRegion) (w : Drawbridge) : DrawbridgeEvent → Prop
  | .fault gpa writeAccess allowPatch =>
    Pending s w.heki.auth → Hostile s allowPatch w.regions gpa writeAccess → InScope armed w gpa
  | _ => True

/-- The handler excuses every hostile write, wherever it goes, while an authorisation is pending. -/
theorem excuses_iff (s : VmiSession) (w : Drawbridge) (gpa : U64) (writeAccess : Bool) (allowPatch : Option CStr) :
    Excuses s w gpa writeAccess allowPatch ↔
      Pending s w.heki.auth ∧ Hostile s allowPatch w.regions gpa writeAccess := by
  rw [Excuses, npfHandlerProcess_eq]
  by_cases hhostile : Hostile s allowPatch w.regions gpa writeAccess
  · by_cases hpending : Pending s w.heki.auth
    · have hset : w.heki.auth ≠ npfHandlerClearAuthorized := by
        intro hclear
        obtain ⟨hpgd, hcr3⟩ := (pending_iff s w.heki.auth).mp hpending
        rw [hclear] at hcr3
        exact hpgd hcr3.symm
      simp [hhostile, hpending, hset]
    · simp [hhostile, hpending]
  · simp only [hhostile, not_false_eq_true, if_true, Prod.mk.injEq, true_and, and_false, iff_false, not_and, not_not]
    exact id

/-- **The scope of the drawbridge.** Over every run, with `gs` the guard as it was armed: the writes
    that are excused are writes into regions registered through HEKI, and into none of the armed
    ones, exactly where no hostile write elsewhere arrives while an authorisation is pending. -/
theorem drawbridge_in_scope_iff (s : VmiSession) (gs : GuardState) (es : List DrawbridgeEvent) :
    Along (Drawbridge.step s) (ExcusesInScope s gs.guardRegions.regions) (opened gs) es ↔
      Along (Drawbridge.step s) (NoStrayWrite s gs.guardRegions.regions) (opened gs) es := by
  have hsame : ExcusesInScope s gs.guardRegions.regions = NoStrayWrite s gs.guardRegions.regions := by
    funext w e
    cases e with
    | client host rand payload => rfl
    | cpuid eax ecx cr3 => rfl
    | fault gpa writeAccess allowPatch =>
      rw [ExcusesInScope, NoStrayWrite, excuses_iff]
      exact propext and_imp
  rw [hsame]

/-- A client's map of 8 bytes at 0x3000000. -/
def rulesPayload : List U8 :=
  [0x49, 0x4B, 0x45, 0x48] ++ [0, 0, 0, 3, 0, 0, 0, 0] ++ [8, 0, 0, 0] ++ [1] ++ 0x6D :: List.replicate 31 0

/-- The client registers the map and announces an update. -/
def announced (s : VmiSession) (g : Guard) : Drawbridge :=
  run (Drawbridge.step s) (opened g.state)
    [.client (guestWith 0x81) 0 rulesPayload, .cpuid hekiMagic 0x48454B49 s.kernelPgd]

/-- **The table for a map.** An update of the map is announced; what is written is the syscall table,
    which was armed, and the handler excuses it. -/
theorem table_write_excused : ∃ s g,
    nptGuardArm (guestWith 0x81) (fun _ => none) guestSession unarmedState = some (.armed s g) ∧
      (announced s g).hekiRegions.map (fun r => (r.gpa, r.size)) = [(0x3000000, 8)] ∧
      (∃ r ∈ g.state.guardRegions.regions, r.name = ascii "sys_call_table" ∧ r.Contains s.syscallTableGpa) ∧
      Excuses s (announced s g) s.syscallTableGpa true none := by
  have hrun : (nptGuardArm (guestWith 0x81) (fun _ => none) guestSession unarmedState).any (·.armedWith fun s g =>
      (announced s g).hekiRegions.map (fun r => (r.gpa, r.size)) = [(0x3000000, 8)] ∧
        (∃ r ∈ g.state.guardRegions.regions, r.name = ascii "sys_call_table" ∧ r.Contains s.syscallTableGpa) ∧
        Excuses s (announced s g) s.syscallTableGpa true none) = true := by
    decide +kernel
  obtain ⟨s, g, harm, hfacts⟩ := exists_armed hrun
  exact ⟨s, g, harm, of_decide_eq_true hfacts⟩

end SentinelStack.Vmi
