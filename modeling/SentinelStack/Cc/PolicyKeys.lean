import SentinelStack.Cc.CallGraph
import SentinelStack.Cc.LibcBase
import SentinelStack.Cc.Provenance

/- The keys of the policy maps. The loader scans each module's file for `syscall`
   instructions, and stores a key for each; the kernel side looks a site up under
   its address minus the base recorded for the module.

   The five ways to a key are written apart: the main binary's subtracts the load
   base of its file, those of libc, of the libraries found at start and of the
   libraries found by a later scan are the addresses in the file as they are, and
   the dynamic linker's are moved by `ld_base - libc_base`. Main result:
   `keys_match_iff` — a module mapped at any bias has the keys the kernel looks up,
   if and only if it is the main binary, or no site of it is whitelisted, or its
   file is linked at address 0. `prelinked_key_misses` is a library linked
   elsewhere. -/
namespace SentinelStack.Cc
open SentinelStack.Lib

/-! The scanners. -/

/-- A library's file, with what its section headers say beyond the names: the symbols of each
    section of type `SHT_DYNSYM` or `SHT_SYMTAB`, and the executable `SHT_PROGBITS` sections. -/
structure LibImage extends ElfImage where
  symbolTables : List (List Symbol)
  execSections : List ExecSection

/-- The addresses of the `syscall` instructions (`0f 05`) in bytes that begin at `addr`. -/
def sitesIn (addr : U64) (bytes : List U8) : List U64 :=
  ((List.range (bytes.length - 1)).filter fun j => bytes[j]? = some 0x0f ∧ bytes[j + 1]? = some 0x05).map fun j =>
    addr + BitVec.ofNat 64 j

def scanElfTextForSyscalls (img : LibImage) (maxOffsets : Nat) : List U64 :=
  (img.execSections.flatMap fun s => sitesIn s.vaddr s.data).take maxOffsets

/-- `LIBC_SCAN_DEFAULT`. -/
def libcScanDefault : U64 := 128

/-- The sites in the first symbol of the name that has an address. -/
def resolveLibcSyscallSites (img : LibImage) (symName : CStr) (maxOffsets : Nat) : List U64 :=
  match img.symbolTables.findSome? fun table => table.find? fun s => s.name = some symName ∧ s.value ≠ 0 with
  | none => []
  | some sym =>
    match getBytesAt img.execSections sym.value (if sym.size = 0 then libcScanDefault else sym.size) with
    | none => []
    | some bytes => (sitesIn sym.value bytes).take maxOffsets

def maxLibcSyms : Nat := 8192

/-- `DEFAULT_FUNC_SIZE`. -/
def defaultFuncSize : U64 := 256

/-- One symbol of `build_libc_symtab`: functions with a name and an address, one for each address. -/
def addFuncSym (syms : List LibcSym) (s : Symbol) : List LibcSym :=
  match s.name with
  | none => syms
  | some name =>
    if syms.length < maxLibcSyms ∧ s.IsFunc ∧ s.value ≠ 0 ∧ name ≠ [] ∧ ¬ syms.any (·.addr = s.value) then
      syms ++ [⟨s.value, if s.size = 0 then defaultFuncSize else s.size, strncpyz 128 name⟩]
    else syms

def buildLibcSymtab (img : LibImage) : List LibcSym :=
  (img.symbolTables.flatten.foldl addFuncSym []).mergeSort fun a b => a.addr ≤ b.addr

def loadExecSections (img : LibImage) (max : Nat) : List ExecSection := (img.execSections.filter (·.data ≠ [])).take max

/-! The keys each module gets. -/

/-- An update of a policy map, for the `syscall` instruction at `site` in the module's file.
    `noExist`: with `BPF_NOEXIST`, which leaves a key that is there alone. -/
structure PolicyWrite where
  site : U64
  key : U64
  value : U64
  noExist : Bool
  deriving DecidableEq, Repr

/-- The updates for a parsed section: those of `PolicyParse.entries`. -/
def mainWrites (p : PolicyParse) : List PolicyWrite :=
  p.sites.map fun s => ⟨s.site, s.site - p.loadBase, policyValue s.nr, false⟩

theorem mainWrites_entries (p : PolicyParse) : (mainWrites p).map (fun w => (w.key, w.value)) = p.entries := by
  simp [mainWrites, PolicyParse.entries]

/-- The wrappers whose sites the call-graph filter binds to a number. -/
def nrBindings : List (CStr × U32) :=
  [(ascii "write", 1), (ascii "__write", 1), (ascii "__libc_write", 1), (ascii "__write_nocancel", 1),
    (ascii "read", 0), (ascii "__read", 0), (ascii "__libc_read", 0), (ascii "__read_nocancel", 0),
    (ascii "openat", 257), (ascii "openat64", 257), (ascii "__openat_nocancel", 257), (ascii "open", 257),
    (ascii "open64", 257), (ascii "__open", 257), (ascii "__libc_open", 257), (ascii "__open_nocancel", 257),
    (ascii "mmap", 9), (ascii "mmap64", 9), (ascii "__mmap", 9), (ascii "mprotect", 10), (ascii "__mprotect", 10),
    (ascii "connect", 42), (ascii "__connect", 42), (ascii "memfd_create", 319), (ascii "prctl", 157),
    (ascii "__prctl", 157), (ascii "sendmsg", 46), (ascii "__sendmsg", 46), (ascii "dup2", 33), (ascii "close", 3),
    (ascii "__close", 3), (ascii "ioctl", 16)]

/-- The wrappers the fallback resolves one by one. -/
def libcSyms : List (CStr × U32) :=
  [(ascii "write", 1), (ascii "__write", 1), (ascii "__libc_write", 1), (ascii "__write_nocancel", 1),
    (ascii "read", 0), (ascii "__read", 0), (ascii "__libc_read", 0), (ascii "__read_nocancel", 0),
    (ascii "openat", 257), (ascii "openat64", 257), (ascii "__openat_nocancel", 257), (ascii "open", 257),
    (ascii "open64", 257), (ascii "__open", 257), (ascii "__open64", 257), (ascii "__libc_open", 257),
    (ascii "__libc_open64", 257), (ascii "__open_nocancel", 257), (ascii "__open64_nocancel", 257), (ascii "mmap", 9),
    (ascii "mmap64", 9), (ascii "__mmap", 9), (ascii "mprotect", 10), (ascii "__mprotect", 10), (ascii "connect", 42),
    (ascii "__connect", 42), (ascii "memfd_create", 319), (ascii "prctl", 157), (ascii "__prctl", 157),
    (ascii "sendmsg", 46), (ascii "__sendmsg", 46), (ascii "dup2", 33), (ascii "close", 3), (ascii "__close", 3),
    (ascii "__libc_close", 3), (ascii "__close_nocancel", 3), (ascii "ioctl", 16)]

def cancelSyms : List CStr :=
  [ascii "__syscall_cancel_arch", ascii "__syscall_cancel", ascii "__internal_syscall_cancel"]

/-- `POLICY_FLAG_CHECK_NR | nr`. -/
def boundTo (nr : U32) : U64 := policyFlagCheckNr ||| nr.setWidth 64

/-- The value for a site of the call-graph filter: the number of the wrapper it is in, or any. -/
def tracedValue (syms : List LibcSym) (site : U64) : U64 :=
  match (findSymAtAddr syms site).bind (syms[·]?) with
  | none => 1
  | some sym => ((nrBindings.find? (·.1 = sym.name)).map (boundTo ·.2)).getD 1

/-- An update under the address in the file. -/
def atSite (value : U64) (noExist : Bool) (site : U64) : PolicyWrite := ⟨site, site, value, noExist⟩

/-- libc's updates without imports: the wrappers, the cancellation trampolines, then every site left. -/
def libcFallback (img : LibImage) : List PolicyWrite :=
  (libcSyms.flatMap fun sym => (resolveLibcSyscallSites img sym.1 8).map (atSite (boundTo sym.2) false)) ++
    (cancelSyms.flatMap fun name => (resolveLibcSyscallSites img name 4).map (atSite 1 false)) ++
    (scanElfTextForSyscalls img 512).map (atSite 1 true)

/-- libc's updates. `tableAllocated` and `allocated` are the outcomes of the allocations for the
    symbol table and for the search. -/
def libcWrites (tableAllocated allocated : Bool) (img : LibImage) (imports : List CStr) : List PolicyWrite :=
  let syms := buildLibcSymtab img
  if imports ≠ [] ∧ tableAllocated ∧ syms ≠ [] then
    (traceLibcCallgraph allocated syms (loadExecSections img 16) imports 2048).sites.map fun site =>
      atSite (tracedValue syms site) false site
  else libcFallback img

/-- The dynamic linker's updates, in libc's map. -/
def ldWrites (ldBase libcBase : U64) (img : LibImage) : List PolicyWrite :=
  (scanElfTextForSyscalls img 256).map fun site => ⟨site, ldBase + site - libcBase, 1, true⟩

/-- A library's updates, in the discovery at start and in a later scan alike. -/
def libraryWrites (allocated : Bool) (img : LibImage) (imports : List CStr) : List PolicyWrite :=
  let traced := if imports = [] then []
    else (traceLibCallgraph allocated (buildLibcSymtab img) (loadExecSections img 16) imports 512).sites
  (if traced = [] then scanElfTextForSyscalls img 512 else traced).map (atSite 1 false)

/-! Modules in an address space. -/

/-- A file mapped at a bias, so that the lowest of its mappings is its first segment's. `starts`
    are the starts of the lines taken for the module's. -/
structure Mapped (starts : List U64) (loadBase : U64) where
  bias : U64
  aligned : loadBase.toNat % 4096 = 0
  lowest : Lowest starts (bias + loadBase)
  mapped : bias + loadBase ≠ BitVec.allOnes 64

/-- The starts of the lines with the name in them. -/
def namedStarts (text : List U8) (name : CStr) : List U64 := (matchingRanges (fgetsLines 512 text) name).map (·.1)

/-- The starts of the linker's lines. -/
def ldStarts (text : List U8) : List U64 := ((fgetsLines 512 text).filter fun line => isLdLine line).filterMap sscanfAddr

/-- A module in the address space that `text` shows, with its file and what its installation
    depends on besides. -/
inductive LoadedModule where
  | main (text : List U8) (name : CStr) (img : ElfImage) (place : Mapped (namedStarts text name) img.loadBase)
      (p : PolicyParse) (parsed : parseSentinelSection maxPolicyEntries (.elf img) = some p)
  | libc (text : List U8) (img : LibImage) (place : Mapped (namedStarts text (ascii "libc")) img.loadBase)
      (found : getLibcBase (some text) ≠ 0) (tableAllocated allocated : Bool) (imports : List CStr)
  /-- The kernel lists mappings by address, so that the first of the linker's lines is the lowest. -/
  | ld (text : List U8) (img : LibImage) (place : Mapped (ldStarts text) img.loadBase)
      (first : getLdBase (some text) = place.bias + img.loadBase)
  | library (moduleId : U32) (text : List U8) (path : CStr) (img : LibImage)
      (place : Mapped (namedStarts text (shortName path)) img.loadBase) (allocated : Bool) (imports : List CStr)
  | dlopened (moduleId : U32) (text : List U8) (path : CStr) (img : LibImage)
      (place : Mapped (namedStarts text (shortName path)) img.loadBase) (allocated : Bool) (imports : List CStr)

/-- `*out_base` after `populate_vma_for_module`, which every block it stores carries; 0 before. -/
def outBase (text : List U8) (name : CStr) (moduleId : U32) : U64 :=
  (populateVmaForModule (2 ^ (64 - vmaBlockShift)) (some text) name moduleId).base.getD 0

namespace LoadedModule

def bias : LoadedModule → U64
  | main _ _ _ place _ _ => place.bias
  | libc _ _ place _ _ _ _ => place.bias
  | ld _ _ place _ => place.bias
  | library _ _ _ _ place _ _ => place.bias
  | dlopened _ _ _ _ place _ _ => place.bias

/-- The address the file is linked at: its first `PT_LOAD` segment's. -/
def loadBase : LoadedModule → U64
  | main _ _ img _ _ _ => img.loadBase
  | libc _ img _ _ _ _ _ => img.loadBase
  | ld _ img _ _ => img.loadBase
  | library _ _ _ img _ _ _ => img.loadBase
  | dlopened _ _ _ img _ _ _ => img.loadBase

/-- The base recorded in `vma_map`: for the linker it is libc's. -/
def recordedBase : LoadedModule → U64
  | main text name _ _ _ _ => outBase text name moduleMain
  | libc text _ _ _ _ _ _ => libcBaseOf text
  | ld text _ _ _ => libcBaseOf text
  | library moduleId text path _ _ _ _ => outBase text (shortName path) moduleId
  | dlopened moduleId text path _ _ _ _ => outBase text (shortName path) moduleId

/-- The updates of the module's policy map. -/
def writes : LoadedModule → List PolicyWrite
  | main _ _ _ _ p _ => mainWrites p
  | libc _ img _ _ tableAllocated allocated imports => libcWrites tableAllocated allocated img imports
  | ld text img _ _ => ldWrites (getLdBase (some text)) (libcBaseOf text) img
  | library _ _ _ img _ allocated imports => libraryWrites allocated img imports
  | dlopened _ _ _ img _ allocated imports => libraryWrites allocated img imports

def IsMain : LoadedModule → Prop
  | main .. => True
  | _ => False

/-- Each key is the offset the kernel looks its site up under. -/
def KeysMatch (m : LoadedModule) : Prop := ∀ w ∈ m.writes, w.key = m.bias + w.site - m.recordedBase

end LoadedModule

/-! The bases. -/

theorem outBase_eq {text : List U8} {name : CStr} {l : U64} (place : Mapped (namedStarts text name) l)
    (moduleId : U32) : outBase text name moduleId = place.bias + l := by
  have hlo : (hullOf (matchingRanges (mapsLines 512 (some text)) name)).1 = place.bias + l :=
    hullOf_of_lowest place.lowest
  unfold outBase populateVmaForModule
  dsimp only
  rw [hlo, if_neg place.mapped]
  rfl

theorem libcBaseOf_eq {text : List U8} {l : U64} (place : Mapped (namedStarts text (ascii "libc")) l)
    (found : getLibcBase (some text) ≠ 0) : libcBaseOf text = place.bias + l := by
  have hlo : (hullOf (libcRanges text)).1 = place.bias + l := hullOf_of_lowest place.lowest
  unfold libcBaseOf
  rw [hlo, if_neg found, if_neg place.mapped]

/-! The keys. -/

/-- libc's updates are under the addresses in its file, by each of the ways to them. -/
theorem libcWrites_key {tableAllocated allocated : Bool} {img : LibImage} {imports : List CStr} {w : PolicyWrite}
    (h : w ∈ libcWrites tableAllocated allocated img imports) : w.key = w.site := by
  unfold libcWrites at h
  dsimp only at h
  split at h
  · obtain ⟨site, -, rfl⟩ := List.mem_map.mp h
    rfl
  · -- wrappers, trampolines, and every site left
    simp only [libcFallback, List.mem_append, List.mem_flatMap, List.mem_map] at h
    rcases h with (⟨_, _, site, _, rfl⟩ | ⟨_, _, site, _, rfl⟩) | ⟨site, _, rfl⟩
    · rfl
    · rfl
    · rfl

theorem libraryWrites_key {allocated : Bool} {img : LibImage} {imports : List CStr} {w : PolicyWrite}
    (h : w ∈ libraryWrites allocated img imports) : w.key = w.site := by
  obtain ⟨site, -, rfl⟩ := List.mem_map.mp h
  rfl

/-- Updates that are all right or all wrong, by the link address. -/
theorem all_keys_iff {ws : List PolicyWrite} {right : PolicyWrite → Prop} {l : U64}
    (h : ∀ w ∈ ws, (right w ↔ l = 0)) : (∀ w ∈ ws, right w) ↔ ws = [] ∨ l = 0 := by
  cases ws with
  | nil => simp
  | cons w rest =>
    constructor
    · intro hall
      exact Or.inr ((h w List.mem_cons_self).mp (hall w List.mem_cons_self))
    · intro hl w' hw'
      exact (h w' hw').mpr (hl.resolve_left (List.cons_ne_nil _ _))

/-- An address in the file is the offset from `bias + l` when the file is linked at 0. -/
theorem site_eq_offset_iff (bias l site : U64) : site = bias + site - (bias + l) ↔ l = 0 := by
  constructor
  · intro h
    bv_omega
  · intro h
    bv_omega

/-- Updates under the addresses in the file, against a base at its lowest mapping. -/
theorem keys_at_sites_iff {ws : List PolicyWrite} (hkey : ∀ w ∈ ws, w.key = w.site) {bias l base : U64}
    (hbase : base = bias + l) : (∀ w ∈ ws, w.key = bias + w.site - base) ↔ ws = [] ∨ l = 0 := by
  apply all_keys_iff
  intro w hw
  rw [hkey w hw, hbase]
  exact site_eq_offset_iff bias l w.site

/-- The main binary's keys leave out the load base, as the recorded base has it in. -/
theorem main_keysMatch {p : PolicyParse} {bias l base : U64} (hl : p.loadBase = l) (hbase : base = bias + l) :
    ∀ w ∈ mainWrites p, w.key = bias + w.site - base := by
  intro w hw
  obtain ⟨s, -, rfl⟩ := List.mem_map.mp hw
  dsimp only
  -- `site - l = bias + site - (bias + l)`, modulo 2 ^ 64
  rw [hl, hbase]
  bv_omega

/-- The linker's keys count `ld_base` for the bias. -/
theorem ld_keys_iff {img : LibImage} {ldBase libcBase bias l : U64} (hfirst : ldBase = bias + l) :
    (∀ w ∈ ldWrites ldBase libcBase img, w.key = bias + w.site - libcBase) ↔ ldWrites ldBase libcBase img = [] ∨ l = 0 := by
  apply all_keys_iff
  intro w hw
  obtain ⟨site, -, rfl⟩ := List.mem_map.mp hw
  dsimp only
  rw [hfirst]
  constructor
  · intro h
    bv_omega
  · intro h
    bv_omega

/-- **Whose keys match.** A module at any bias gets the keys that the kernel side looks up exactly
    when it is the main binary, has no site whitelisted, or is linked at 0. -/
theorem keys_match_iff (m : LoadedModule) : m.KeysMatch ↔ m.IsMain ∨ m.writes = [] ∨ m.loadBase = 0 := by
  cases m with
  | main text name img place p parsed =>
    exact iff_of_true (main_keysMatch (parseSentinelSection_loadBase parsed) (outBase_eq place moduleMain)) (Or.inl trivial)
  | libc text img place found tableAllocated allocated imports =>
    exact (keys_at_sites_iff (fun w => libcWrites_key) (libcBaseOf_eq place found)).trans (or_iff_right not_false).symm
  | ld text img place first =>
    exact (ld_keys_iff first).trans (or_iff_right not_false).symm
  | library moduleId text path img place allocated imports =>
    exact (keys_at_sites_iff (fun w => libraryWrites_key) (outBase_eq place moduleId)).trans (or_iff_right not_false).symm
  | dlopened moduleId text path img place allocated imports =>
    exact (keys_at_sites_iff (fun w => libraryWrites_key) (outBase_eq place moduleId)).trans (or_iff_right not_false).symm

/-- A library linked at 0x10000, with one system call. -/
def prelinkedImage : LibImage where
  phdrs := [⟨true, 0x10000⟩]
  hasShstrtab := true
  sections := []
  symbolTables := []
  execSections := [⟨0x11000, [0x0f, 0x05, 0xc3], by decide⟩]

def prelinkedText : List U8 := ascii "7f0000010000-7f0000020000 r-xp 0 0:0 2 /lib/libold.so\n"

theorem prelinked_starts : namedStarts prelinkedText (shortName (ascii "/lib/libold.so")) = [0x7f0000010000] := by
  decide +kernel

theorem prelinked_loadBase : prelinkedImage.loadBase = 0x10000 := rfl

/-- Mapped 0x7f0000000000 above its link address. -/
def prelinkedPlace : Mapped (namedStarts prelinkedText (shortName (ascii "/lib/libold.so"))) prelinkedImage.loadBase where
  bias := 0x7f0000000000
  aligned := rfl
  lowest := by
    rw [prelinked_starts, prelinked_loadBase]
    decide +kernel
  mapped := by
    rw [prelinked_loadBase]
    decide

def prelinked : LoadedModule :=
  .library 3 prelinkedText (ascii "/lib/libold.so") prelinkedImage prelinkedPlace true []

/-- **The key of a prelinked library misses.** Its system call at 0x7f0000011000 is whitelisted
    under 0x11000 and looked up under 0x1000. -/
theorem prelinked_key_misses :
    prelinked.writes = [⟨0x11000, 0x11000, 1, false⟩] ∧
      prelinked.bias + 0x11000 - prelinked.recordedBase = 0x1000 ∧ ¬ prelinked.KeysMatch := by
  have hwrites : prelinked.writes = [⟨0x11000, 0x11000, 1, false⟩] := by decide +kernel
  have hoffset : prelinked.bias + 0x11000 - prelinked.recordedBase = 0x1000 := by decide +kernel
  refine ⟨hwrites, hoffset, fun h => ?_⟩
  have hkey := h ⟨0x11000, 0x11000, 1, false⟩ (by rw [hwrites]; exact List.mem_cons_self)
  dsimp only at hkey
  rw [hoffset] at hkey
  exact absurd hkey (by decide)

end SentinelStack.Cc
