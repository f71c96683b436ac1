import SentinelStack.Lib.CText
import SentinelStack.Lib.Scan
import SentinelStack.Cc.Signature

/- Key revocation: the list `sign_tool --revoke` appends to, and the check the
   loader makes against it before it trusts a key.

   The writer puts a `TIMESTAMP` in front of every `REVOKE`; the reader takes each
   of them for the age of the whole file and gives up at the first that is more
   than 30 days old. Main result: `crl_check_iff` — a revocation is found exactly
   while the oldest one in the file is fresh, and if no overlong reason in front
   of it stops the reader. -/
namespace SentinelStack.Cc
open SentinelStack.Lib

/-! The writer. -/

/-- A successful `sign_tool --revoke`: the SHA-256 of the key, the reason, which is one line,
    and the seconds since the epoch. -/
structure Revocation where
  fingerprint : List U8
  reason : CStr
  time : Nat
  length_fingerprint : fingerprint.length = 32
  newline_notMem_reason : newline ∉ reason
  nul_notMem_reason : 0 ∉ reason
  time_lt : time < 2 ^ 63

namespace Revocation

def timestampLine (r : Revocation) : CStr := ascii "TIMESTAMP " ++ fmtDec r.time

def revokeLine (r : Revocation) : CStr := ascii "REVOKE " ++ (fmtHexBytes r.fingerprint ++ 0x20 :: r.reason)

/-- What one revocation appends. -/
def entry (r : Revocation) : List U8 := r.timestampLine ++ newline :: (r.revokeLine ++ [newline])

end Revocation

def crlHeader : List U8 :=
  ascii "# Sentinel-CC Certificate Revocation List" ++ newline :: (ascii "VERSION 1" ++ [newline])

/-- `cmd_revoke` on a file, `none` when there is no such file yet. -/
def cmdRevoke (crl : Option (List U8)) (r : Revocation) : Option (List U8) :=
  let text := crl.getD []
  some ((if text = [] then crlHeader else text) ++ r.entry)

/-- The file after the revocations `rs`, in this order. -/
def crlAfter (rs : List Revocation) : Option (List U8) := rs.foldl cmdRevoke none

/-! The reader. -/

/-- What a line is read as. -/
inductive CrlLine where
  | skipped
  | version (ver : Int)
  | timestamp (seconds : Int)
  | revoke (entry : CStr)
  deriving DecidableEq, Repr

def crlLine (line : CStr) : CrlLine :=
  if line.head? = some 0x23 ∨ line = [] then .skipped
  else if line.take 8 = ascii "VERSION " then .version (atoi (line.drop 8))
  else if line.take 10 = ascii "TIMESTAMP " then .timestamp (strtol (line.drop 10))
  else if line.take 7 = ascii "REVOKE " then .revoke (line.drop 7)
  else .skipped

/-- The lines of a file, as many as `char line[512]` makes of them. -/
def crlLines (text : List U8) : List CrlLine := (fgetsLines 512 text).map fun line => crlLine (chomp line)

/-- 30 days, in seconds. -/
def crlLifetime : Nat := 30 * 86400

/-- `now - crl_timestamp > 30 * 86400`, on 64-bit `time_t`. -/
def CrlExpired (now seconds : Int) : Prop := (now - seconds).bmod (2 ^ 64) > crlLifetime

instance (now seconds : Int) : Decidable (CrlExpired now seconds) := inferInstanceAs (Decidable (_ > _))

/-- `strncmp(entry, fp_hex, 64) == 0`. -/
def SameFingerprint (entry fpHex : CStr) : Prop := entry.take 64 = fpHex.take 64

instance (entry fpHex : CStr) : Decidable (SameFingerprint entry fpHex) := inferInstanceAs (Decidable (_ = _))

/-- The loop of `check_crl_file` over the lines left. -/
def checkCrlLoop (now : Int) (fpHex : CStr) : (versionOk : Bool) → List CrlLine → Bool
  | _, [] => false
  | versionOk, .skipped :: rest => checkCrlLoop now fpHex versionOk rest
  | _, .version ver :: rest => if ver ≠ 1 then false else checkCrlLoop now fpHex true rest
  | versionOk, .timestamp seconds :: rest =>
    if CrlExpired now seconds then false else checkCrlLoop now fpHex versionOk rest
  | versionOk, .revoke entry :: rest =>
    if versionOk ∧ SameFingerprint entry fpHex then true else checkCrlLoop now fpHex versionOk rest

/-- `check_crl_file`. -/
def checkCrlFile (crl : Option (List U8)) (fpHex : CStr) (now : Int) : Bool :=
  match crl with
  | none => false
  | some text => checkCrlLoop now fpHex false (crlLines text)

/-- The fingerprint in a line of `/etc/sentinel/revoked_keys`. -/
def revokedKeysLists (revokedKeys : Option (List U8)) (fpHex : CStr) : Bool :=
  ((fgetsLines 256 (revokedKeys.getD [])).map chomp).any fun line =>
    ¬ (line.head? = some 0x23 ∨ line = []) ∧ SameFingerprint line fpHex

/-- `is_key_revoked` on the DER encoding of the key, `none` when it has none. -/
def isKeyRevoked (sha256 : List U8 → List U8) (revokedKeys crl : Option (List U8)) (now : Int)
    (der : Option (List U8)) : Bool :=
  match der with
  | none => false
  | some der =>
    let fpHex := fmtHexBytes (sha256 der)
    revokedKeysLists revokedKeys fpHex || checkCrlFile crl fpHex now

/-! The file, line by line. -/

theorem crlLines_append (line rest : List U8) :
    crlLines (line ++ newline :: rest) = crlLines (line ++ [newline]) ++ crlLines rest := by
  rw [crlLines, fgetsLines_append, List.map_append, crlLines, crlLines]

theorem crlLines_of_fits {line : List U8} (hnl : newline ∉ line) (hnul : 0 ∉ line) (hlen : line.length < 511) :
    crlLines (line ++ [newline]) = [crlLine line] := by
  rw [crlLines, fgetsLines_of_fits hnl hnul (by omega), List.map_singleton, chomp_append_newline hnl]

/-- What is left of a line behind the first 511 bytes is read as lines of its own. -/
def overflowLines (line : CStr) : List CrlLine :=
  if line.length < 511 then [] else crlLines (line.drop 511 ++ [newline])

theorem crlLines_line {line : List U8} (hnl : newline ∉ line) (hnul : 0 ∉ line) :
    crlLines (line ++ [newline]) = crlLine (line.take 511) :: overflowLines line := by
  by_cases hlen : line.length < 511
  · rw [crlLines_of_fits hnl hnul hlen, overflowLines, if_pos hlen, List.take_of_length_le (by omega)]
  · have hsplit : line ++ [newline] = line.take 511 ++ (line.drop 511 ++ [newline]) := by
      rw [← List.append_assoc, List.take_append_drop]
    have hlen' : (line.take 511).length = 512 - 1 := by
      rw [List.length_take]
      omega
    have hnl' : newline ∉ line.take 511 := fun h => hnl (List.mem_of_mem_take h)
    have hne : line.take 511 ≠ [] := List.ne_nil_of_length_pos (by omega)
    rw [overflowLines, if_neg hlen, crlLines, hsplit,
      fgetsLines_of_fills _ hnl' (fun h => hnul (List.mem_of_mem_take h)) hne hlen', List.map_cons, chomp_eq_self hnl',
      crlLines]

theorem ascii_timestamp : ascii "TIMESTAMP " = [0x54, 0x49, 0x4D, 0x45, 0x53, 0x54, 0x41, 0x4D, 0x50, 0x20] := by
  decide +kernel

theorem ascii_revoke : ascii "REVOKE " = [0x52, 0x45, 0x56, 0x4F, 0x4B, 0x45, 0x20] := by decide +kernel

theorem ascii_version : ascii "VERSION " = [0x56, 0x45, 0x52, 0x53, 0x49, 0x4F, 0x4E, 0x20] := by decide +kernel

theorem crlLine_timestamp (s : CStr) : crlLine (ascii "TIMESTAMP " ++ s) = .timestamp (strtol s) := by
  simp [crlLine, ascii_timestamp, ascii_version]

theorem crlLine_revoke (s : CStr) : crlLine (ascii "REVOKE " ++ s) = .revoke s := by
  simp [crlLine, ascii_timestamp, ascii_version, ascii_revoke]

namespace Revocation

variable (r : Revocation)

theorem newline_notMem_revokeLine : newline ∉ r.revokeLine := by
  rw [revokeLine, List.mem_append, List.mem_append, List.mem_cons]
  rintro (h | h | h | h)
  · exact absurd h (by decide +kernel)
  · exact (mem_fmtHexBytes h).1 rfl
  · exact absurd h (by decide)
  · exact r.newline_notMem_reason h

theorem nul_notMem_revokeLine : 0 ∉ r.revokeLine := by
  rw [revokeLine, List.mem_append, List.mem_append, List.mem_cons]
  rintro (h | h | h | h)
  · exact absurd h (by decide +kernel)
  · exact (mem_fmtHexBytes h).2 rfl
  · exact absurd h (by decide)
  · exact r.nul_notMem_reason h

/-- The lines read behind the first of the `REVOKE` line. -/
def overflow : List CrlLine := overflowLines r.revokeLine

/-- The entry read from the first line, cut off with it. -/
def readEntry : CStr := (fmtHexBytes r.fingerprint ++ 0x20 :: r.reason).take 504

theorem crlLines_revokeLine : crlLines (r.revokeLine ++ [newline]) = .revoke r.readEntry :: r.overflow := by
  have htake : r.revokeLine.take 511 = ascii "REVOKE " ++ r.readEntry := by
    rw [revokeLine, List.take_append, List.take_of_length_le (by rw [ascii_revoke]; decide), ascii_revoke]
    rfl
  rw [crlLines_line r.newline_notMem_revokeLine r.nul_notMem_revokeLine, htake, crlLine_revoke, overflow]

theorem crlLines_timestampLine : crlLines (r.timestampLine ++ [newline]) = [.timestamp r.time] := by
  have hmem : ∀ c ∈ r.timestampLine, c ≠ newline ∧ c ≠ 0 := by
    intro c hc
    rcases List.mem_append.mp hc with hc | hc
    · have hall : ∀ c ∈ ascii "TIMESTAMP ", c ≠ newline ∧ c ≠ 0 := by
        rw [ascii_timestamp]
        decide
      exact hall c hc
    · exact (isDecDigit_spec (isDecDigit_of_mem_fmtDec r.time c hc)).2.2.2
  have hlen : r.timestampLine.length < 511 := by
    have hdigits := length_fmtDec_le (by omega : 0 < 19) (lt_of_lt_of_le r.time_lt (by decide) : r.time < 10 ^ 19)
    rw [timestampLine, List.length_append, ascii_timestamp]
    simp only [List.length_cons, List.length_nil]
    omega
  rw [crlLines_of_fits (fun h => (hmem _ h).1 rfl) (fun h => (hmem _ h).2 rfl) hlen, timestampLine, crlLine_timestamp,
    strtol_fmtDec r.time_lt]

/-- The lines one revocation is read as. -/
def lines : List CrlLine := .timestamp r.time :: .revoke r.readEntry :: r.overflow

theorem crlLines_entry (rest : List U8) : crlLines (r.entry ++ rest) = r.lines ++ crlLines rest := by
  have hshape : r.entry ++ rest = r.timestampLine ++ newline :: (r.revokeLine ++ newline :: rest) := by
    simp [entry]
  rw [hshape, crlLines_append, crlLines_timestampLine, crlLines_append r.revokeLine, crlLines_revokeLine, lines]
  simp

end Revocation

theorem crlLines_entries (rs : List Revocation) : crlLines (rs.flatMap (·.entry)) = rs.flatMap (·.lines) := by
  induction rs with
  | nil => rfl
  | cons r rs ih => rw [List.flatMap_cons, Revocation.crlLines_entry, ih, List.flatMap_cons]

theorem foldl_cmdRevoke {text : List U8} (h : text ≠ []) (rs : List Revocation) :
    rs.foldl cmdRevoke (some text) = some (text ++ rs.flatMap (·.entry)) := by
  induction rs generalizing text with
  | nil => simp
  | cons r rs ih =>
    have hne : text ++ r.entry ≠ [] := by simp [h]
    rw [List.foldl_cons, cmdRevoke, Option.getD_some, if_neg h, ih hne, List.flatMap_cons, List.append_assoc]

/-- The header is written once. -/
theorem crlAfter_cons (r : Revocation) (rs : List Revocation) :
    crlAfter (r :: rs) = some (crlHeader ++ (r :: rs).flatMap (·.entry)) := by
  have hne : crlHeader ++ r.entry ≠ [] := by simp [crlHeader]
  rw [crlAfter, List.foldl_cons, cmdRevoke, Option.getD_none, if_pos rfl, foldl_cmdRevoke hne, List.flatMap_cons,
    List.append_assoc]

theorem crlLines_header (rest : List U8) : crlLines (crlHeader ++ rest) = .skipped :: .version 1 :: crlLines rest := by
  have hshape : crlHeader ++ rest =
      ascii "# Sentinel-CC Certificate Revocation List" ++ newline :: (ascii "VERSION 1" ++ newline :: rest) := by
    simp [crlHeader]
  have hcomment : crlLines (ascii "# Sentinel-CC Certificate Revocation List" ++ [newline]) = [.skipped] := by
    decide +kernel
  have hversion : crlLines (ascii "VERSION 1" ++ [newline]) = [.version 1] := by decide +kernel
  rw [hshape, crlLines_append, hcomment, crlLines_append (ascii "VERSION 1"), hversion]
  rfl

/-! What the reader finds. -/

/-- The line revokes the key. -/
def CrlLine.Names (fpHex : CStr) : CrlLine → Prop
  | .revoke entry => SameFingerprint entry fpHex
  | _ => False

/-- The reader gives up at the line. -/
def CrlLine.Stops (now : Int) : CrlLine → Prop
  | .version ver => ver ≠ 1
  | .timestamp seconds => CrlExpired now seconds
  | _ => False

theorem checkCrlLoop_iff {now : Int} {fpHex : CStr} {ls : List CrlLine} :
    checkCrlLoop now fpHex true ls = true ↔ Reaches (CrlLine.Names fpHex) (CrlLine.Stops now) ls := by
  induction ls with
  | nil => simp [checkCrlLoop, Reaches]
  | cons l ls ih =>
    cases l with
    | skipped => simp [checkCrlLoop, Reaches, CrlLine.Names, CrlLine.Stops, ih]
    | version ver => by_cases h : ver = 1 <;> simp [checkCrlLoop, Reaches, CrlLine.Names, CrlLine.Stops, ih, h]
    | timestamp seconds =>
      by_cases h : CrlExpired now seconds <;> simp [checkCrlLoop, Reaches, CrlLine.Names, CrlLine.Stops, ih, h]
    | revoke entry =>
      by_cases h : SameFingerprint entry fpHex <;>
        simp [checkCrlLoop, Reaches, CrlLine.Names, CrlLine.Stops, ih, h]

namespace Revocation

/-- The revocation names the key: in its entry or, for an overlong reason, in a line cut off it. -/
def Names (r : Revocation) (now : Int) (fp : List U8) : Prop :=
  r.fingerprint = fp ∨ Reaches (CrlLine.Names (fmtHexBytes fp)) (CrlLine.Stops now) r.overflow

/-- A line cut off the reason stops the reader. -/
def Stops (r : Revocation) (now : Int) : Prop := ∃ l ∈ r.overflow, l.Stops now

theorem sameFingerprint_readEntry {r : Revocation} {fp : List U8} (hfp : fp.length = 32) :
    SameFingerprint r.readEntry (fmtHexBytes fp) ↔ r.fingerprint = fp := by
  have hr : (fmtHexBytes r.fingerprint).length = 64 := by rw [length_fmtHexBytes, r.length_fingerprint]
  have hlen : (fmtHexBytes fp).length = 64 := by rw [length_fmtHexBytes, hfp]
  rw [SameFingerprint, readEntry, List.take_take, List.take_append_of_le_length (by omega),
    List.take_of_length_le (by omega), List.take_of_length_le (by omega), fmtHexBytes_injective.eq_iff]

theorem reaches_lines {r : Revocation} {now : Int} {fp : List U8} (hfp : fp.length = 32) :
    Reaches (CrlLine.Names (fmtHexBytes fp)) (CrlLine.Stops now) r.lines ↔ ¬ CrlExpired now r.time ∧ r.Names now fp := by
  simp [lines, Reaches, CrlLine.Names, CrlLine.Stops, sameFingerprint_readEntry hfp, Names]

theorem stops_lines {r : Revocation} {now : Int} :
    (∃ l ∈ r.lines, l.Stops now) ↔ CrlExpired now r.time ∨ r.Stops now := by
  simp [lines, CrlLine.Stops, Stops]

end Revocation

theorem crlExpired_iff {now time : Nat} (hnow : now < 2 ^ 63) (htime : time < 2 ^ 63) :
    CrlExpired now time ↔ time + crlLifetime < now := by
  rw [CrlExpired, Int.bmod_eq_of_le (by omega) (by omega)]
  omega

/-- What the check finds in the file, whatever the order of the times. -/
theorem checkCrlFile_iff (rs : List Revocation) {fp : List U8} (hfp : fp.length = 32) (now : Int) :
    checkCrlFile (crlAfter rs) (fmtHexBytes fp) now = true ↔
      ∃ front r rest, rs = front ++ r :: rest ∧ (¬ CrlExpired now r.time ∧ r.Names now fp) ∧
        ∀ q ∈ front, ¬ (CrlExpired now q.time ∨ q.Stops now) := by
  cases rs with
  | nil => simp [crlAfter, checkCrlFile]
  | cons r rs =>
    rw [crlAfter_cons, checkCrlFile, crlLines_header, crlLines_entries, checkCrlLoop, checkCrlLoop,
      if_neg (by simp), checkCrlLoop_iff, reaches_flatMap, reaches_iff_split]
    simp only [Revocation.reaches_lines hfp, Revocation.stops_lines]

/-- **When a revocation is found.** The list is read only while its oldest entry is at most 30
    days old: from then on every later revocation in it is without effect. -/
theorem crl_check_iff (first : Revocation) (rs : List Revocation)
    (hsorted : (first :: rs).Pairwise fun a b => a.time ≤ b.time) (fp : List U8) (hfp : fp.length = 32) (now : Nat)
    (hnow : now < 2 ^ 63) :
    checkCrlFile (crlAfter (first :: rs)) (fmtHexBytes fp) now = true ↔
      now ≤ first.time + crlLifetime ∧
        ∃ front r rest, first :: rs = front ++ r :: rest ∧ r.Names now fp ∧ ∀ q ∈ front, ¬ q.Stops now := by
  rw [checkCrlFile_iff (first :: rs) hfp]
  constructor
  · intro h
    obtain ⟨front, r, rest, hsplit, ⟨hfresh, hnames⟩, hfront⟩ := h
    -- the first revocation is the one found, or in front of it
    have hfirst : ¬ CrlExpired now first.time := by
      cases front with
      | nil =>
        rw [List.nil_append, List.cons.injEq] at hsplit
        exact hsplit.1 ▸ hfresh
      | cons q front =>
        rw [List.cons_append, List.cons.injEq] at hsplit
        exact hsplit.1 ▸ fun h => hfront q List.mem_cons_self (Or.inl h)
    rw [crlExpired_iff hnow first.time_lt, not_lt] at hfirst
    exact ⟨hfirst, front, r, rest, hsplit, hnames, fun q hq h => hfront q hq (Or.inr h)⟩
  · intro h
    obtain ⟨hfirst, front, r, rest, hsplit, hnames, hfront⟩ := h
    have hfresh : ∀ q ∈ first :: rs, ¬ CrlExpired now q.time := by
      intro q hq
      rw [crlExpired_iff hnow q.time_lt, not_lt]
      rcases List.mem_cons.mp hq with rfl | hq
      · exact hfirst
      · exact le_trans hfirst (Nat.add_le_add_right ((List.pairwise_cons.mp hsorted).1 q hq) crlLifetime)
    have hmem : ∀ q ∈ front ++ r :: rest, ¬ CrlExpired now q.time := hsplit ▸ hfresh
    refine ⟨front, r, rest, hsplit, ⟨hmem r (by simp), hnames⟩, fun q hq h => ?_⟩
    exact h.elim (hmem q (List.mem_append_left _ hq)) (hfront q hq)

/-! Two revocations, 20 days apart. -/

/-- The key whose fingerprint is `b` repeated. -/
def revokedAt (b : U8) (time : Nat) (htime : time < 2 ^ 63) : Revocation where
  fingerprint := List.replicate 32 b
  reason := ascii "compromised"
  time := time
  length_fingerprint := List.length_replicate
  newline_notMem_reason := by decide +kernel
  nul_notMem_reason := by decide +kernel
  time_lt := htime

/-- The first key is revoked on day 0, the second on day 20, and on day 31 the second is not
    found, although it was revoked 11 days ago. -/
theorem later_revocation_expires_early :
    checkCrlFile (crlAfter [revokedAt 1 0 (by decide), revokedAt 2 (20 * 86400) (by decide)])
      (fmtHexBytes (List.replicate 32 2)) (31 * 86400) = false := by
  decide +kernel

/-- On day 30 it is still found. -/
theorem crl_check_two :
    checkCrlFile (crlAfter [revokedAt 1 0 (by decide), revokedAt 2 (20 * 86400) (by decide)])
      (fmtHexBytes (List.replicate 32 2)) (30 * 86400 : Nat) = true := by
  refine (crl_check_iff (revokedAt 1 0 (by decide)) [revokedAt 2 (20 * 86400) (by decide)] (by decide)
    (List.replicate 32 2) List.length_replicate (30 * 86400) (by decide)).mpr ⟨by decide, ?_⟩
  refine ⟨[revokedAt 1 0 (by decide)], revokedAt 2 (20 * 86400) (by decide), [], rfl, Or.inl rfl, ?_⟩
  have hoverflow : (revokedAt 1 0 (by decide)).overflow = [] := by decide +kernel
  intro q hq hstops
  rw [List.mem_singleton.mp hq, Revocation.Stops, hoverflow] at hstops
  obtain ⟨l, hl, -⟩ := hstops
  exact absurd hl List.not_mem_nil

/-! The effect on a start. -/

/-- The key found, with the revocation files as they are at a time. -/
def keyStoreAt {PubKey : Type} (der : PubKey → Option (List U8)) (sha256 : List U8 → List U8)
    (revokedKeys crl : Option (List U8)) (now : Int) (pubkey : Option PubKey) : KeyStore PubKey :=
  ⟨pubkey, fun pub => isKeyRevoked sha256 revokedKeys crl now (der pub)⟩

/-- A key the list names signs nothing the loader starts. -/
theorem revoked_key_refused (ed : SignatureScheme) (sha256 : List U8 → List U8) (der : ed.PubKey → Option (List U8))
    (revokedKeys crl : Option (List U8)) (now : Int) {pub : ed.PubKey} {bytes : List U8} (hder : der pub = some bytes)
    (hcrl : checkCrlFile crl (fmtHexBytes (sha256 bytes)) now = true) (img : ElfImage) :
    verifySignature ed sha256 (keyStoreAt der sha256 revokedKeys crl now (some pub)) (.elf img) = false := by
  rw [Bool.eq_false_iff]
  intro h
  obtain ⟨-, pub', hpub, hvalid, -⟩ := verifySignature_iff.mp h
  obtain rfl : pub = pub' := Option.some.inj hpub
  simp [keyStoreAt, isKeyRevoked, hder, hcrl] at hvalid

end SentinelStack.Cc
