import SentinelStack.Lib.CText
import SentinelStack.Lib.Blocks
import SentinelStack.Cc.Shared

/- The text of `/proc/PID/maps` and the C library calls the loader reads it
   with: `fgets` into a fixed buffer, `strstr`, `strchr`, `strrchr` and
   `sscanf("%lx-%lx")`. Every read of the file is one text, or none when
   `fopen` failed. -/
namespace SentinelStack.Cc
open SentinelStack.Lib

/-- The content one `fopen` of the maps file gives. -/
abbrev MapsText := Option (List U8)

def slash : U8 := 0x2F

/-- The part of `s` after the last slash, or `s`. -/
def shortName (s : CStr) : CStr := (s.reverse.takeWhile (· ≠ slash)).reverse

/-- `sscanf(line, "%lx", &x)`. -/
def sscanfAddr (line : CStr) : Option U64 := (scanHex line).map (·.1)

/-- `sscanf(line, "%lx-%lx", &start, &end)`: what was assigned to each. -/
def sscanfRange (line : CStr) : Option U64 × Option U64 :=
  match scanHex line with
  | none => (none, none)
  | some (start, 0x2D :: rest) => (some start, sscanfAddr rest)
  | some (start, _) => (some start, none)

/-- The range of a line on which both numbers were read. -/
def lineRange (line : CStr) : Option (U64 × U64) :=
  match sscanfRange line with
  | (some start, some stop) => some (start, stop)
  | _ => none

/-- The path field of a line. -/
def linePath (line : CStr) : Option CStr := (strchr line slash).map chomp

theorem linePath_within {line path : CStr} (h : linePath line = some path) : path <:+: line := by
  rw [linePath, Option.map_eq_some_iff] at h
  obtain ⟨tail, htail, rfl⟩ := h
  have hsuffix : tail <:+ line := by
    unfold strchr at htail
    split at htail
    · cases htail
    · rw [← Option.some.inj htail]
      exact List.dropWhile_suffix _
  exact (List.takeWhile_prefix _).isInfix.trans hsuffix.isInfix

/-- A line in which a name from a slash on is found has a path, and the name is in it. -/
theorem linePath_of_strstr {line name : CStr} (h : Strstr line (slash :: name)) (hname : newline ∉ slash :: name)
    (hend : newline ∉ line.dropLast) : ∃ path, linePath line = some path ∧ slash :: name <:+: path := by
  obtain ⟨before, after, rfl⟩ := h
  have hbefore : newline ∉ before := by
    intro hmem
    rw [List.append_assoc, List.dropLast_append_of_ne_nil (by simp)] at hend
    exact hend (List.mem_append_left _ hmem)
  obtain ⟨front, hsuffix, htail⟩ := strchr_append before slash (name ++ after)
  have hfront : newline ∉ front := fun hmem => hbefore (hsuffix.mem hmem)
  rw [List.append_assoc, List.cons_append]
  refine ⟨_, by rw [linePath, htail]; rfl, ?_⟩
  have hall : ∀ c ∈ front ++ slash :: name, decide (c ≠ newline) = true := by
    intro c hc
    apply decide_eq_true
    rintro rfl
    exact (List.mem_append.mp hc).elim hfront hname
  rw [← List.cons_append, ← List.append_assoc, chomp, List.takeWhile_append_of_pos hall]
  exact ⟨front, _, rfl⟩

/-! Searches of the maps file. -/

def mapsLines (n : Nat) (maps : MapsText) : List CStr := (maps.map (fgetsLines n)).getD []

def isLibcLine (line : CStr) : Prop := Strstr line (ascii "/libc.so") ∨ Strstr line (ascii "/libc-")

instance (line : CStr) : Decidable (isLibcLine line) := inferInstanceAs (Decidable (_ ∨ _))

def isLdLine (line : CStr) : Prop := Strstr line (ascii "ld-linux") ∨ Strstr line (ascii "ld-musl")

instance (line : CStr) : Decidable (isLdLine line) := inferInstanceAs (Decidable (_ ∨ _))

def getLibcBase (maps : MapsText) : U64 :=
  match (mapsLines 256 maps).find? fun line => isLibcLine line with
  | none => 0
  | some line => (sscanfAddr line).getD 0

def findLibcPath (maps : MapsText) : Option CStr :=
  (mapsLines 512 maps).findSome? fun line =>
    if isLibcLine line ∧ ¬ Strstr line (ascii "libcrypto") ∧ ¬ Strstr line (ascii "libcap") then linePath line
    else none

def findModulePath (maps : MapsText) (needle : CStr) : Option CStr :=
  (mapsLines 512 maps).findSome? fun line => if Strstr line needle then linePath line else none

end SentinelStack.Cc
