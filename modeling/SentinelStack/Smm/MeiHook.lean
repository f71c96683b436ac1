import SentinelStack.Lib.CTypes
import SentinelStack.Lib.Run
import SentinelStack.Lib.BoundedMap

/- The HECI interdiction of the MEI module (`sentinel_mei_hook.c`): a kretprobe on
   `mei_cldev_send` that takes the decision at the entry of the function and writes
   `-EPERM` into its return register. Any number of sends run at a time; of the probe
   instances there are 16, and a send that finds none is not tracked.

   Main result: `denied_send_iff` — in every run a denied send is blocked exactly as long
   as its body has not run to completion; what it returns then is `-EPERM` if it was
   tracked and its GUID could be extracted, and the value of the body otherwise.
   `denied_payload_delivered` is one denied send, and the last of 17 at a time. -/
namespace SentinelStack.Smm
open SentinelStack.Lib

/-! The policy. -/

inductive SentinelMeiPolicy where
  | allow
  | logOnly
  | deny
  deriving DecidableEq, Repr

/-- The 16 bytes of a `guid_t`. -/
abbrev Guid := List U8

/-- `GUID_INIT`: the three numbers in little-endian order, then the bytes. -/
def guidInit (a : U32) (b c : BitVec 16) (d : List U8) : Guid :=
  [a.extractLsb' 0 8, a.extractLsb' 8 8, a.extractLsb' 16 8, a.extractLsb' 24 8,
   b.extractLsb' 0 8, b.extractLsb' 8 8, c.extractLsb' 0 8, c.extractLsb' 8 8] ++ d

structure SentinelMeiGuidEntry where
  guid : Guid
  name : String
  policy : SentinelMeiPolicy

def sentinelMeiRestrictedGuids : List SentinelMeiGuidEntry :=
  [⟨guidInit 0x12F80028 0xB4B7 0x4B2D [0xAC, 0xA8, 0x46, 0xE0, 0xFF, 0x65, 0x81, 0x4C], "AMT Remote Control", .deny⟩,
   ⟨guidInit 0xFB3B192E 0xE714 0x44A4 [0x8B, 0x22, 0x55, 0x82, 0x23, 0xDE, 0x6F, 0xF4], "AMT SOL", .deny⟩,
   ⟨guidInit 0xF934D0F2 0x3E42 0x402E [0x8C, 0xDF, 0x73, 0x01, 0x02, 0xAA, 0x13, 0xD1], "ICC Clock Control", .deny⟩,
   ⟨guidInit 0x8E6A6715 0x9ABC 0x4043 [0x88, 0xEF, 0x9E, 0x39, 0xC6, 0xF6, 0x3E, 0x0F], "MKHI", .logOnly⟩]

/-- The policy and the client's name. -/
def sentinelMeiLookupGuid (strictMkhi : Bool) (guid : Guid) : SentinelMeiPolicy × String :=
  match sentinelMeiRestrictedGuids.find? (·.guid = guid) with
  | some entry => (if entry.policy = .logOnly ∧ strictMkhi then .deny else entry.policy, entry.name)
  | none => (.allow, "Unknown")

/-! Where the GUID is. -/

/-- What the module is compiled against: `offsetof(struct mei_cl_device, me_cl)` and `PAGE_OFFSET`. -/
structure KernelLayout where
  meClOffset : U64
  pageOffset : U64

def meiMeClientGuidOffset : U64 := 24

/-- A call of `mei_cldev_send`: its first argument, and the kernel memory at that time; a byte that
    cannot be read is `none`. -/
structure MeiCall where
  cldev : U64
  memory : U64 → Option U8

/-- `copy_from_kernel_nofault`. -/
def copyFromKernelNofault (memory : U64 → Option U8) (src : U64) (size : Nat) : Option (List U8) :=
  (List.range size).mapM fun i => memory (src + BitVec.ofNat 64 i)

/-- The `me_cl` pointer of the device. -/
def MeiCall.meCl (k : KernelLayout) (call : MeiCall) : Option U64 :=
  (copyFromKernelNofault call.memory (call.cldev + k.meClOffset) 8).map leWord

/-- The GUID in the client. -/
def MeiCall.guidAt (call : MeiCall) (meCl : U64) : Option Guid :=
  copyFromKernelNofault call.memory (meCl + meiMeClientGuidOffset) 16

def sentinelMeiExtractGuid (k : KernelLayout) (call : MeiCall) : Option Guid :=
  if call.cldev = 0 then none
  else
    match call.meCl k with
    | none => none
    | some meClAddr => if meClAddr = 0 ∨ meClAddr < k.pageOffset then none else call.guidAt meClAddr

/-! The probes. -/

/-- `struct sentinel_mei_kretprobe_data`. -/
structure KretprobeData where
  policy : SentinelMeiPolicy
  guid : Guid
  clientName : String
  deriving DecidableEq, Repr

/-- The entry handler: the data of the instance. -/
def sentinelMeiSendRetEntry (k : KernelLayout) (strictMkhi : Bool) (call : MeiCall) : KretprobeData :=
  match sentinelMeiExtractGuid k call with
  | none => ⟨.allow, List.replicate 16 0, "Unknown"⟩
  | some guid =>
    let (policy, clientName) := sentinelMeiLookupGuid strictMkhi guid
    ⟨policy, guid, clientName⟩

/-- `(unsigned long)(-EPERM)`. -/
def negEperm : U64 := 0xFFFFFFFFFFFFFFFF

/-- The return handler: the return register. -/
def sentinelMeiSendRetHandler (data : KretprobeData) (rax : U64) : U64 :=
  if data.policy = .deny then negEperm else rax

/-- `.maxactive`. -/
def maxactive : Nat := 16

/-- The atomic counters of the telemetry probe. -/
structure MeiCounters where
  sendTotal : U64 := 0
  sendBlocked : U64 := 0
  sendLogged : U64 := 0
  deriving DecidableEq, Repr

/-- The pre-handler of the kprobe. -/
def sentinelMeiSendPre (k : KernelLayout) (strictMkhi : Bool) (call : MeiCall) (n : MeiCounters) : MeiCounters :=
  let n := { n with sendTotal := n.sendTotal + 1 }
  match sentinelMeiExtractGuid k call with
  | none => n
  | some guid =>
    match (sentinelMeiLookupGuid strictMkhi guid).1 with
    | .deny => { n with sendBlocked := n.sendBlocked + 1 }
    | .logOnly => { n with sendLogged := n.sendLogged + 1 }
    | .allow => n

/-! Concurrent sends. -/

/-- Where a send is, and whether a probe instance was free when it entered. -/
inductive SendPhase where
  | idle
  | running (call : MeiCall) (tracked : Bool)
  | completed (call : MeiCall) (tracked : Bool) (bodyValue : U64)
  | returned (call : MeiCall) (tracked : Bool) (bodyValue value : U64)

structure MeiState where
  strictMkhi : Bool := false
  /-- The probe instances in use. -/
  instances : BoundedMap Nat KretprobeData maxactive := .empty
  nmissed : Nat := 0
  counters : MeiCounters := {}
  sends : Nat → SendPhase := fun _ => .idle
  /-- The sends whose payload the ME has. -/
  delivered : List Nat := []

inductive MeiEvent where
  /-- A write to the module parameter. -/
  | setStrictMkhi (on : Bool)
  | enter (id : Nat) (call : MeiCall)
  /-- The body runs to completion: the payload is handed over. -/
  | complete (id : Nat) (bodyValue : U64)
  | leave (id : Nat)

variable (k : KernelLayout)

/-- Both probes at the entry of the function. -/
def enterSend (s : MeiState) (id : Nat) (call : MeiCall) : MeiState :=
  let tracked := decide (s.instances.HasRoom id)
  { s with
    -- a full pool takes no entry: the send is skipped
    instances := s.instances.put id (sentinelMeiSendRetEntry k s.strictMkhi call)
    nmissed := if tracked then s.nmissed else s.nmissed + 1
    counters := sentinelMeiSendPre k s.strictMkhi call s.counters
    sends := Function.update s.sends id (.running call tracked) }

/-- The body has handed the payload over. -/
def completeSend (s : MeiState) (id : Nat) (call : MeiCall) (tracked : Bool) (bodyValue : U64) : MeiState :=
  { s with
    sends := Function.update s.sends id (.completed call tracked bodyValue)
    delivered := s.delivered ++ [id] }

/-- The return: through the handler, if there is an instance, which is then free again. -/
def leaveSend (s : MeiState) (id : Nat) (call : MeiCall) (tracked : Bool) (bodyValue : U64) : MeiState :=
  match s.instances.lookup id with
  | none => { s with sends := Function.update s.sends id (.returned call tracked bodyValue bodyValue) }
  | some data =>
    { s with
      instances := s.instances.erase id
      sends := Function.update s.sends id
        (.returned call tracked bodyValue (sentinelMeiSendRetHandler data bodyValue)) }

/-- One event; a send takes its steps in order, each once. -/
def meiStep (s : MeiState) : MeiEvent → MeiState
  | .setStrictMkhi on => { s with strictMkhi := on }
  | .enter id call =>
    match s.sends id with
    | .idle => enterSend k s id call
    | _ => s
  | .complete id bodyValue =>
    match s.sends id with
    | .running call tracked => completeSend s id call tracked bodyValue
    | _ => s
  | .leave id =>
    match s.sends id with
    | .completed call tracked bodyValue => leaveSend s id call tracked bodyValue
    | _ => s

/-- The module from its load on. -/
def meiRun (es : List MeiEvent) : MeiState := run (meiStep k) {} es

/-! What holds of every send. -/

/-- The send has entered, with this call. -/
def SendPhase.call? : SendPhase → Option MeiCall
  | .idle => none
  | .running call _ | .completed call _ _ | .returned call _ _ _ => some call

/-- The body has run to completion. -/
def SendPhase.bodyDone : SendPhase → Bool
  | .completed _ _ _ | .returned _ _ _ _ => true
  | _ => false

/-- What the caller got. -/
def SendPhase.value? : SendPhase → Option U64
  | .returned _ _ _ value => some value
  | _ => none

/-- A tracked send has the data of its entry, whatever the parameter was then. -/
def Tracks (call : MeiCall) (tracked : Bool) (inst : Option KretprobeData) : Prop :=
  ∃ strict, inst = if tracked then some (sentinelMeiSendRetEntry k strict call) else none

/-- What a send's phase says of its probe instance and of its payload. -/
def SendInv (inst : Option KretprobeData) (delivered : Prop) : SendPhase → Prop
  | .idle => inst = none ∧ ¬delivered
  | .running call tracked => Tracks k call tracked inst ∧ ¬delivered
  | .completed call tracked _ => Tracks k call tracked inst ∧ delivered
  | .returned call tracked bodyValue value => inst = none ∧ delivered ∧ ∃ data, Tracks k call tracked data ∧
      value = (data.map fun d => sentinelMeiSendRetHandler d bodyValue).getD bodyValue

def MeiInv (s : MeiState) : Prop := ∀ id, SendInv k (s.instances.lookup id) (id ∈ s.delivered) (s.sends id)

variable {k}

theorem enterSend_inv {s : MeiState} (h : MeiInv k s) {id : Nat} (call : MeiCall) (hidle : s.sends id = .idle) :
    MeiInv k (enterSend k s id call) := by
  intro j
  have hj := h j
  by_cases hji : j = id
  · subst hji
    rw [hidle] at hj
    have hphase : (enterSend k s j call).sends j = .running call (decide (s.instances.HasRoom j)) :=
      Function.update_self ..
    rw [hphase]
    refine ⟨⟨s.strictMkhi, ?_⟩, hj.2⟩
    by_cases hroom : s.instances.HasRoom j
    · rw [decide_eq_true hroom, if_pos rfl]
      exact BoundedMap.lookup_put_self hroom
    · rw [decide_eq_false hroom, if_neg Bool.false_ne_true]
      have hput : (enterSend k s j call).instances = s.instances := BoundedMap.put_of_full hroom
      rw [hput]
      exact hj.1
  · have hphase : (enterSend k s id call).sends j = s.sends j := Function.update_of_ne hji ..
    have hinst : (enterSend k s id call).instances.lookup j = s.instances.lookup j := BoundedMap.lookup_put_ne hji
    rw [hphase, hinst]
    exact hj

theorem completeSend_inv {s : MeiState} (h : MeiInv k s) {id : Nat} {call : MeiCall} {tracked : Bool} (bodyValue : U64)
    (hrunning : s.sends id = .running call tracked) : MeiInv k (completeSend s id call tracked bodyValue) := by
  intro j
  have hj := h j
  have hdelivered : (completeSend s id call tracked bodyValue).delivered = s.delivered ++ [id] := rfl
  rw [hdelivered]
  by_cases hji : j = id
  · subst hji
    rw [hrunning] at hj
    have hphase : (completeSend s j call tracked bodyValue).sends j = .completed call tracked bodyValue :=
      Function.update_self ..
    rw [hphase]
    exact ⟨hj.1, List.mem_append_right _ (List.mem_singleton_self j)⟩
  · have hphase : (completeSend s id call tracked bodyValue).sends j = s.sends j := Function.update_of_ne hji ..
    have hmem : j ∈ s.delivered ++ [id] ↔ j ∈ s.delivered := by
      rw [List.mem_append, List.mem_singleton, or_iff_left hji]
    rw [hphase, hmem]
    exact hj

theorem leaveSend_inv {s : MeiState} (h : MeiInv k s) {id : Nat} {call : MeiCall} {tracked : Bool} {bodyValue : U64}
    (hcompleted : s.sends id = .completed call tracked bodyValue) :
    MeiInv k (leaveSend s id call tracked bodyValue) := by
  intro j
  have hj := h j
  unfold leaveSend
  by_cases hji : j = id
  · subst hji
    rw [hcompleted] at hj
    obtain ⟨htracks, hdelivered⟩ := hj
    cases hinst : s.instances.lookup j with
    | none =>
      dsimp only
      rw [Function.update_self, hinst]
      rw [hinst] at htracks
      exact ⟨rfl, hdelivered, none, htracks, rfl⟩
    | some data =>
      dsimp only
      rw [Function.update_self, BoundedMap.lookup_erase_self]
      rw [hinst] at htracks
      exact ⟨rfl, hdelivered, some data, htracks, rfl⟩
  · cases s.instances.lookup id with
    | none =>
      dsimp only
      rw [Function.update_of_ne hji]
      exact hj
    | some data =>
      dsimp only
      rw [Function.update_of_ne hji, BoundedMap.lookup_erase_ne hji]
      exact hj

/-- What an event can do. -/
theorem meiStep_cases (s : MeiState) (e : MeiEvent) :
    meiStep k s e = s ∨ (∃ on, meiStep k s e = { s with strictMkhi := on }) ∨
      (∃ id call, s.sends id = .idle ∧ meiStep k s e = enterSend k s id call) ∨
      (∃ id call tracked bodyValue, s.sends id = .running call tracked ∧
        meiStep k s e = completeSend s id call tracked bodyValue) ∨
      (∃ id call tracked bodyValue, s.sends id = .completed call tracked bodyValue ∧
        meiStep k s e = leaveSend s id call tracked bodyValue) := by
  cases e with
  | setStrictMkhi on => exact .inr (.inl ⟨on, rfl⟩)
  | enter id call =>
    cases hphase : s.sends id with
    | idle => exact .inr (.inr (.inl ⟨id, call, hphase, by simp only [meiStep, hphase]⟩))
    | running _ _ | completed _ _ _ | returned _ _ _ _ => exact .inl (by simp only [meiStep, hphase])
  | complete id bodyValue =>
    cases hphase : s.sends id with
    | running call tracked =>
      exact .inr (.inr (.inr (.inl ⟨id, call, tracked, bodyValue, hphase, by simp only [meiStep, hphase]⟩)))
    | idle | completed _ _ _ | returned _ _ _ _ => exact .inl (by simp only [meiStep, hphase])
  | leave id =>
    cases hphase : s.sends id with
    | completed call tracked bodyValue =>
      exact .inr (.inr (.inr (.inr ⟨id, call, tracked, bodyValue, hphase, by simp only [meiStep, hphase]⟩)))
    | idle | running _ _ | returned _ _ _ _ => exact .inl (by simp only [meiStep, hphase])

theorem meiStep_inv (s : MeiState) (e : MeiEvent) (h : MeiInv k s) : MeiInv k (meiStep k s e) := by
  rcases meiStep_cases s e with hstep | ⟨on, hstep⟩ | ⟨id, call, hidle, hstep⟩ |
    ⟨id, call, tracked, bodyValue, hrunning, hstep⟩ | ⟨id, call, tracked, bodyValue, hcompleted, hstep⟩
  · rw [hstep]
    exact h
  · rw [hstep]
    exact h
  · rw [hstep]
    exact enterSend_inv h call hidle
  · rw [hstep]
    exact completeSend_inv h bodyValue hrunning
  · rw [hstep]
    exact leaveSend_inv h hcompleted

theorem meiRun_inv (es : List MeiEvent) : MeiInv k (meiRun k es) := by
  refine run_inv meiStep_inv ?_ es
  intro id
  exact ⟨rfl, List.not_mem_nil⟩

/-! Denied sends. -/

variable (k)

/-- The GUID of the send's client is in the table with the policy DENY. -/
def Denied (call : MeiCall) : Prop :=
  ∃ meCl guid, call.meCl k = some meCl ∧ call.guidAt meCl = some guid ∧
    ∃ entry ∈ sentinelMeiRestrictedGuids, entry.guid = guid ∧ entry.policy = .deny

/-- The payload is not with the ME, and the caller got nothing but `-EPERM`. -/
def Blocked (s : MeiState) (id : Nat) : Prop :=
  id ∉ s.delivered ∧ ∀ value, (s.sends id).value? = some value → value = negEperm

theorem lookupGuid_deny (strict : Bool) :
    ∀ entry ∈ sentinelMeiRestrictedGuids, entry.policy = .deny →
      (sentinelMeiLookupGuid strict entry.guid).1 = .deny := by
  revert strict
  decide

variable {k}

/-- What is extracted is the GUID of the client. -/
theorem guid_of_extract {call : MeiCall} {guid : Guid} (h : sentinelMeiExtractGuid k call = some guid) :
    ∃ meCl, call.meCl k = some meCl ∧ call.guidAt meCl = some guid := by
  unfold sentinelMeiExtractGuid at h
  split at h
  · cases h
  · cases hmeCl : call.meCl k with
    | none =>
      rw [hmeCl] at h
      cases h
    | some meCl =>
      rw [hmeCl] at h
      dsimp only at h
      split at h
      · cases h
      · exact ⟨meCl, rfl, h⟩

/-- The handler denies exactly the sends whose GUID the module can extract. -/
theorem retHandler_denied {call : MeiCall} (hdenied : Denied k call) (strict : Bool) (rax : U64) :
    sentinelMeiSendRetHandler (sentinelMeiSendRetEntry k strict call) rax =
      if (sentinelMeiExtractGuid k call).isSome then negEperm else rax := by
  unfold sentinelMeiSendRetEntry
  cases hextract : sentinelMeiExtractGuid k call with
  | none => rfl
  | some guid =>
    obtain ⟨meCl, guid', hmeCl, hguid', entry, hentry, rfl, hpolicy⟩ := hdenied
    obtain ⟨meCl', hmeCl', hguid⟩ := guid_of_extract hextract
    obtain rfl : meCl = meCl' := Option.some.inj (hmeCl.symm.trans hmeCl')
    obtain rfl : entry.guid = guid := Option.some.inj (hguid'.symm.trans hguid)
    exact if_pos (lookupGuid_deny strict entry hentry hpolicy)

/-- **When a denied send is blocked.** In every run of the module, for any number of sends at a time in
    any interleaving and any kernel memory: a denied send that has entered is blocked exactly as long as
    its body has not run to completion. Once it returns, its caller gets `-EPERM` if a probe instance was
    free at its entry and its GUID could be extracted there, and what the body returned otherwise. -/
theorem denied_send_iff (es : List MeiEvent) (id : Nat) (call : MeiCall)
    (hcall : ((meiRun k es).sends id).call? = some call) (hdenied : Denied k call) :
    (Blocked (meiRun k es) id ↔ ((meiRun k es).sends id).bodyDone = false) ∧
      ∀ tracked bodyValue value, (meiRun k es).sends id = .returned call tracked bodyValue value →
        value = if tracked ∧ (sentinelMeiExtractGuid k call).isSome then negEperm else bodyValue := by
  have hinv := meiRun_inv (k := k) es id
  unfold Blocked
  cases hphase : (meiRun k es).sends id with
  | idle =>
    rw [hphase] at hcall
    exact absurd hcall (Option.some_ne_none call).symm
  | running call' tracked =>
    rw [hphase] at hinv
    exact ⟨⟨fun _ => rfl, fun _ => ⟨hinv.2, fun value h => absurd h (Option.some_ne_none value).symm⟩⟩,
      fun _ _ _ h => SendPhase.noConfusion h⟩
  | completed call' tracked bodyValue =>
    rw [hphase] at hinv
    exact ⟨⟨fun h => absurd hinv.2 h.1, fun h => absurd h.symm Bool.false_ne_true⟩,
      fun _ _ _ h => SendPhase.noConfusion h⟩
  | returned call' tracked bodyValue value =>
    rw [hphase] at hinv hcall
    obtain rfl : call' = call := Option.some.inj hcall
    obtain ⟨-, hdelivered, data, ⟨strict, hdata⟩, hvalue⟩ := hinv
    refine ⟨⟨fun h => absurd hdelivered h.1, fun h => absurd h.symm Bool.false_ne_true⟩, ?_⟩
    rintro tracked' bodyValue' value' heq
    injection heq with _ htracked hbody hvalue'
    subst htracked hbody hvalue'
    rw [hvalue, hdata]
    cases tracked with
    | false => simp
    | true => simp [retHandler_denied hdenied]

/-- A kernel with `me_cl` at `0x418` of the device, and its direct map. -/
def exampleLayout : KernelLayout := ⟨0x418, 0xFFFF888000000000⟩

/-- A send to AMT Remote Control: the device at `0xFFFF888000001000`, its client at `0xFFFF888000002000`. -/
def amtCall : MeiCall where
  cldev := 0xFFFF888000001000
  memory addr :=
    if addr - 0xFFFF888000001418 < 8 then
      some ((0xFFFF888000002000 : U64).extractLsb' (8 * (addr - 0xFFFF888000001418).toNat) 8)
    else if addr - 0xFFFF888000002018 < 16 then
      (guidInit 0x12F80028 0xB4B7 0x4B2D [0xAC, 0xA8, 0x46, 0xE0, 0xFF, 0x65, 0x81, 0x4C])[
        (addr - 0xFFFF888000002018).toNat]?
    else none

theorem denied_amtCall : Denied exampleLayout amtCall := by
  refine ⟨0xFFFF888000002000, guidInit 0x12F80028 0xB4B7 0x4B2D [0xAC, 0xA8, 0x46, 0xE0, 0xFF, 0x65, 0x81, 0x4C],
    by decide +kernel, by decide +kernel, _, List.mem_cons_self, rfl, rfl⟩

theorem denied_send_entered :
    Denied exampleLayout amtCall ∧ Blocked (meiRun exampleLayout [.enter 0 amtCall]) 0 :=
  ⟨denied_amtCall, (denied_send_iff [.enter 0 amtCall] 0 amtCall rfl denied_amtCall).1.mpr rfl⟩

/-- One denied send: the caller gets `-EPERM`, and the ME has the payload. With 16 sends before it in the
    function, a denied send even returns what the body did. -/
theorem denied_payload_delivered :
    Denied exampleLayout amtCall ∧
      (let s := meiRun exampleLayout [.enter 0 amtCall, .complete 0 8, .leave 0]
       0 ∈ s.delivered ∧ (s.sends 0).value? = some negEperm) ∧
      (let s := meiRun exampleLayout ((List.range 17).map (.enter · amtCall) ++ [.complete 16 8, .leave 16])
       16 ∈ s.delivered ∧ (s.sends 16).value? = some 8) := by
  refine ⟨denied_amtCall, ?_, ?_⟩
  · decide +kernel
  · decide +kernel

end SentinelStack.Smm
