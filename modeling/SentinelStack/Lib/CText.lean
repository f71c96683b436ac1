import SentinelStack.Lib.CTypes
import Mathlib.Data.List.Infix
import Mathlib.Data.List.TakeWhile

/- Text as C programs read it: `fgets` into a fixed buffer, `strstr`, `strchr`,
   and numbers as `sscanf`, `strtol` and `atoi` read and `printf` writes them.

   `fgetsLines_append` and its companions say how a text falls into the
   strings `fgets` returns: line by line, a line that fills the buffer in pieces.
   `strtol_fmtDec` is the round trip of `%ld`. -/
namespace SentinelStack.Lib

def newline : U8 := 0x0A

/-- The strings `fgets(line, n, fp)` returns one after the other: each ends after a newline
    or with the buffer full. `cur` is the part of the next one read so far. -/
def fgetsFrom (n : Nat) (cur : List U8) : List U8 → List CStr
  | [] => if cur = [] then [] else [cstrOf cur]
  | c :: rest =>
    let cur := cur ++ [c]
    if c = newline ∨ cur.length ≥ n - 1 then cstrOf cur :: fgetsFrom n [] rest
    else fgetsFrom n cur rest

def fgetsLines (n : Nat) (text : List U8) : List CStr := fgetsFrom n [] text

/-- `strstr(s, needle)` finds something. -/
def Strstr (s needle : CStr) : Prop := needle <:+: s

instance (s needle : CStr) : Decidable (Strstr s needle) := inferInstanceAs (Decidable (needle <:+: s))

/-- `strchr(s, c)`. -/
def strchr (s : CStr) (c : U8) : Option CStr :=
  match s.dropWhile (· ≠ c) with
  | [] => none
  | tail => some tail

/-- The string up to a newline, as after `*strchr(s, '\n') = 0`. -/
def chomp (s : CStr) : CStr := s.takeWhile (· ≠ newline)

def isSpace (c : U8) : Bool := c = 0x20 ∨ (0x09 ≤ c ∧ c ≤ 0x0D)

def hexValue (c : U8) : Option Nat :=
  if 0x30 ≤ c ∧ c ≤ 0x39 then some (c.toNat - 0x30)
  else if 0x61 ≤ c ∧ c ≤ 0x66 then some (c.toNat - 0x61 + 10)
  else if 0x41 ≤ c ∧ c ≤ 0x46 then some (c.toNat - 0x41 + 10)
  else none

/-- The digits at the front of a string, and the rest. -/
def takeHex (acc : Nat) (any : Bool) : CStr → Option (Nat × CStr)
  | [] => if any then some (acc, []) else none
  | c :: rest =>
    match hexValue c with
    | some d => takeHex (16 * acc + d) true rest
    | none => if any then some (acc, c :: rest) else none

/-- An optional sign: whether the number is negated, and the rest. -/
def takeSign : CStr → Bool × CStr
  | c :: rest => if c = 0x2D then (true, rest) else if c = 0x2B then (false, rest) else (false, c :: rest)
  | [] => (false, [])

/-- An optional `0x`. -/
def dropHexPrefix : CStr → CStr
  | a :: b :: rest => if a = 0x30 ∧ (b = 0x78 ∨ b = 0x58) then rest else a :: b :: rest
  | s => s

/-- `%lx`: white space, a sign, `0x`, and hexadecimal digits, saturating like `strtoul`. -/
def scanHex (s : CStr) : Option (U64 × CStr) :=
  let sign := takeSign (s.dropWhile isSpace)
  match takeHex 0 false (dropHexPrefix sign.2) with
  | none => none
  | some (n, rest) =>
    if n ≥ 2 ^ 64 then some (BitVec.allOnes 64, rest)
    else some (if sign.1 then -BitVec.ofNat 64 n else BitVec.ofNat 64 n, rest)

/-! Decimal numbers. -/

def isDecDigit (c : U8) : Bool := 0x30 ≤ c ∧ c ≤ 0x39

/-- `%ld` of a number that is not negative. -/
def fmtDec (n : Nat) : CStr := (Nat.toDigits 10 n).map fun c => BitVec.ofNat 8 c.toNat

/-- The number the digits at the front of a string give. -/
def takeDec (s : CStr) : Nat := (s.takeWhile isDecDigit).foldl (fun acc c => 10 * acc + (c.toNat - 0x30)) 0

/-- `strtol(s, NULL, 10)`: white space, a sign and digits, clamped to a `long`. -/
def strtol (s : CStr) : Int :=
  let sign := takeSign (s.dropWhile isSpace)
  if sign.1 then max (-(2 ^ 63)) (-(takeDec sign.2 : Int)) else min (2 ^ 63 - 1) (takeDec sign.2 : Int)

/-- `atoi(s)`: the low 32 bits of `strtol`. -/
def atoi (s : CStr) : Int := (BitVec.ofInt 32 (strtol s)).toInt

theorem fmtDec_of_lt {n : Nat} (h : n < 10) : fmtDec n = [BitVec.ofNat 8 (0x30 + n)] := by
  rw [fmtDec, Nat.toDigits_of_lt_base h, List.map_singleton, Nat.toNat_digitChar_of_lt_ten h]

theorem fmtDec_of_le {n : Nat} (h : 10 ≤ n) : fmtDec n = fmtDec (n / 10) ++ [BitVec.ofNat 8 (0x30 + n % 10)] := by
  rw [fmtDec, Nat.toDigits_of_base_le (by omega) h, List.map_append, List.map_singleton,
    Nat.toNat_digitChar_of_lt_ten (Nat.mod_lt n (by omega)), fmtDec]

theorem isDecDigit_ofNat {d : Nat} (h : d < 10) : isDecDigit (BitVec.ofNat 8 (0x30 + d)) = true := by
  revert d
  decide

theorem isDecDigit_of_mem_fmtDec (n : Nat) : ∀ c ∈ fmtDec n, isDecDigit c = true := by
  induction n using Nat.strong_induction_on with
  | _ n ih =>
    by_cases h : n < 10
    · simpa [fmtDec_of_lt h] using isDecDigit_ofNat h
    · rw [fmtDec_of_le (by omega)]
      intro c hc
      rcases List.mem_append.mp hc with hc | hc
      · exact ih (n / 10) (by omega) c hc
      · rw [List.mem_singleton.mp hc]
        exact isDecDigit_ofNat (Nat.mod_lt n (by omega))

theorem takeDec_fmtDec (n : Nat) : takeDec (fmtDec n) = n := by
  rw [takeDec, List.takeWhile_eq_self_iff.mpr (isDecDigit_of_mem_fmtDec n)]
  induction n using Nat.strong_induction_on with
  | _ n ih =>
    by_cases h : n < 10
    · rw [fmtDec_of_lt h, List.foldl_cons, List.foldl_nil, BitVec.toNat_ofNat]
      omega
    · rw [fmtDec_of_le (by omega), List.foldl_append, ih (n / 10) (by omega), List.foldl_cons, List.foldl_nil,
        BitVec.toNat_ofNat]
      omega

theorem fmtDec_ne_nil (n : Nat) : fmtDec n ≠ [] := by
  by_cases h : n < 10
  · simp [fmtDec_of_lt h]
  · simp [fmtDec_of_le (by omega : 10 ≤ n)]

/-- A digit is no white space, no sign and no end of a line. -/
theorem isDecDigit_spec {c : U8} (h : isDecDigit c = true) :
    isSpace c = false ∧ c ≠ 0x2D ∧ c ≠ 0x2B ∧ c ≠ newline ∧ c ≠ 0 := by
  revert c
  decide +kernel

theorem strtol_fmtDec {n : Nat} (h : n < 2 ^ 63) : strtol (fmtDec n) = n := by
  have hdigit := isDecDigit_of_mem_fmtDec n
  have hround := takeDec_fmtDec n
  cases hs : fmtDec n with
  | nil => exact absurd hs (fmtDec_ne_nil n)
  | cons c rest =>
    rw [hs] at hdigit hround
    obtain ⟨hspace, hminus, hplus, -, -⟩ := isDecDigit_spec (hdigit c List.mem_cons_self)
    have hsign : takeSign ((c :: rest).dropWhile isSpace) = (false, c :: rest) := by
      rw [List.dropWhile_cons_of_neg (by simp [hspace]), takeSign, if_neg hminus, if_neg hplus]
    simp only [strtol, hsign, hround, Bool.false_eq_true, if_false]
    omega

theorem length_fmtDec_le {n k : Nat} (hk : 0 < k) (h : n < 10 ^ k) : (fmtDec n).length ≤ k := by
  rw [fmtDec, List.length_map]
  exact (Nat.length_toDigits_le_iff (by omega) hk).mpr h

/-! Bytes in hexadecimal. -/

def hexDigit (d : Nat) : U8 := BitVec.ofNat 8 (if d < 10 then 0x30 + d else 0x57 + d)

/-- `%02x` of each byte. -/
def fmtHexBytes (bytes : List U8) : CStr :=
  bytes.flatMap fun b => [hexDigit (b.toNat / 16), hexDigit (b.toNat % 16)]

theorem length_fmtHexBytes (bytes : List U8) : (fmtHexBytes bytes).length = 2 * bytes.length := by
  induction bytes with
  | nil => rfl
  | cons b bytes ih =>
    rw [fmtHexBytes, List.flatMap_cons, List.length_append, ← fmtHexBytes, ih]
    simp only [List.length_cons, List.length_nil]
    omega

theorem hexDigit_inj {d e : Nat} (hd : d < 16) (he : e < 16) (h : hexDigit d = hexDigit e) : d = e := by
  have hall : ∀ d < 16, ∀ e < 16, hexDigit d = hexDigit e → d = e := by decide
  exact hall d hd e he h

theorem fmtHexBytes_injective : Function.Injective fmtHexBytes := by
  intro xs
  induction xs with
  | nil =>
    intro ys h
    cases ys with
    | nil => rfl
    | cons y ys => simp [fmtHexBytes] at h
  | cons x xs ih =>
    intro ys h
    cases ys with
    | nil => simp [fmtHexBytes] at h
    | cons y ys =>
      simp only [fmtHexBytes, List.flatMap_cons, List.cons_append, List.nil_append, List.cons.injEq] at h
      obtain ⟨hhigh, hlow, hrest⟩ := h
      have hx := x.isLt
      have hy := y.isLt
      have hhigh := hexDigit_inj (by omega) (by omega) hhigh
      have hlow := hexDigit_inj (by omega) (by omega) hlow
      have hxy : x = y := BitVec.eq_of_toNat_eq (by omega)
      rw [hxy, ih hrest]

/-- A hexadecimal digit ends neither a line nor a string. -/
theorem hexDigit_spec {d : Nat} (h : d < 16) : hexDigit d ≠ newline ∧ hexDigit d ≠ 0 := by
  revert d
  decide

theorem mem_fmtHexBytes {c : U8} {bytes : List U8} (h : c ∈ fmtHexBytes bytes) : c ≠ newline ∧ c ≠ 0 := by
  obtain ⟨b, -, hc⟩ := List.mem_flatMap.mp h
  have hb := b.isLt
  rcases List.mem_pair.mp hc with rfl | rfl
  · exact hexDigit_spec (by omega)
  · exact hexDigit_spec (by omega)

/-! How a text falls into lines. -/

/-- Neither a newline nor a NUL. -/
def OneLine (s : CStr) : Prop := ∀ c ∈ s, c ≠ newline ∧ c ≠ 0

theorem oneLine_append {s s' : CStr} : OneLine (s ++ s') ↔ OneLine s ∧ OneLine s' := List.forall_mem_append

theorem oneLine_cons {c : U8} {s : CStr} : OneLine (c :: s) ↔ (c ≠ newline ∧ c ≠ 0) ∧ OneLine s := List.forall_mem_cons

theorem oneLine_fmtDec (n : Nat) : OneLine (fmtDec n) :=
  fun c hc => (isDecDigit_spec (isDecDigit_of_mem_fmtDec n c hc)).2.2.2

theorem oneLine_ascii {cs : List Char} (h : (cs.flatMap String.utf8EncodeChar).all (fun b => b != 10 && b != 0) = true) :
    OneLine (ascii (String.ofList cs)) := by
  intro c hc
  rw [ascii, String.toByteArray_ofList, List.utf8Encode, List.data_toByteArray, List.toList_toArray] at hc
  obtain ⟨b, hb, rfl⟩ := List.mem_map.mp hc
  have hbyte := List.all_eq_true.mp h b hb
  rw [Bool.and_eq_true, bne_iff_ne, bne_iff_ne] at hbyte
  exact ⟨fun heq => hbyte.1 (UInt8.toBitVec_inj.mp heq), fun heq => hbyte.2 (UInt8.toBitVec_inj.mp heq)⟩

theorem fgetsFrom_append (n : Nat) (cur line rest : List U8) :
    fgetsFrom n cur (line ++ newline :: rest) = fgetsFrom n cur (line ++ [newline]) ++ fgetsLines n rest := by
  induction line generalizing cur with
  | nil => simp [fgetsFrom, fgetsLines]
  | cons c line ih =>
    simp only [List.cons_append, fgetsFrom]
    split
    · rw [ih, List.cons_append]
    · exact ih (cur ++ [c])

/-- A text is read line by line. -/
theorem fgetsLines_append (n : Nat) (line rest : List U8) :
    fgetsLines n (line ++ newline :: rest) = fgetsLines n (line ++ [newline]) ++ fgetsLines n rest :=
  fgetsFrom_append n [] line rest

theorem cstrOf_eq_self {buf : List U8} (h : 0 ∉ buf) : cstrOf buf = buf := by
  rw [cstrOf, List.takeWhile_eq_self_iff]
  intro c hc
  exact decide_eq_true (fun h0 => h (h0 ▸ hc))

theorem cstrOf_append_nul {name : CStr} (h : 0 ∉ name) (rest : List U8) : cstrOf (name ++ 0 :: rest) = name := by
  have hall : ∀ b ∈ name, decide (b ≠ 0) = true := by
    intro b hb
    exact decide_eq_true fun hzero => h (hzero ▸ hb)
  rw [cstrOf, List.takeWhile_append_of_pos hall, List.takeWhile_cons_of_neg (by simp), List.append_nil]

/-- Nothing is returned while there is room and no newline. -/
theorem fgetsFrom_of_room {n : Nat} (cur line rest : List U8) (hnl : newline ∉ line)
    (hroom : cur.length + line.length < n - 1) : fgetsFrom n cur (line ++ rest) = fgetsFrom n (cur ++ line) rest := by
  induction line generalizing cur with
  | nil => simp
  | cons c line ih =>
    have hc : c ≠ newline := fun h => hnl (h ▸ List.mem_cons_self)
    rw [List.length_cons] at hroom
    rw [List.cons_append, fgetsFrom, if_neg (by simp [hc]; omega), ih _ (fun h => hnl (List.mem_cons_of_mem c h))
      (by simp; omega), List.append_assoc, List.singleton_append]

/-- A line with room for it in the buffer is one string. -/
theorem fgetsLines_of_fits {n : Nat} {line : List U8} (hnl : newline ∉ line) (hnul : 0 ∉ line)
    (hlen : line.length + 1 < n) : fgetsLines n (line ++ [newline]) = [line ++ [newline]] := by
  have hnul' : 0 ∉ line ++ [newline] := by
    rw [List.mem_append, List.mem_singleton]
    exact fun h => h.elim hnul (by decide)
  rw [fgetsLines, fgetsFrom_of_room [] line [newline] hnl (by simp; omega)]
  simp [fgetsFrom, cstrOf_eq_self hnul']

/-- Lines with room for them are returned one by one. -/
theorem fgetsLines_unlines {n : Nat} {lines : List CStr} (h : ∀ line ∈ lines, OneLine line ∧ line.length + 1 < n) :
    fgetsLines n (lines.flatMap (· ++ [newline])) = lines.map (· ++ [newline]) := by
  induction lines with
  | nil => rfl
  | cons line lines ih =>
    obtain ⟨⟨hone, hlen⟩, hlines⟩ := List.forall_mem_cons.mp h
    have hfirst : fgetsLines n (line ++ [newline]) = [line ++ [newline]] :=
      fgetsLines_of_fits (fun hnl => (hone _ hnl).1 rfl) (fun hnul => (hone _ hnul).2 rfl) hlen
    rw [List.flatMap_cons, List.append_assoc, List.singleton_append, fgetsLines_append, hfirst, ih hlines]
    rfl

/-- A full buffer is a string of its own, and reading goes on behind it. -/
theorem fgetsLines_of_fills {n : Nat} {line : List U8} (rest : List U8) (hnl : newline ∉ line) (hnul : 0 ∉ line)
    (hne : line ≠ []) (hlen : line.length = n - 1) : fgetsLines n (line ++ rest) = line :: fgetsLines n rest := by
  obtain ⟨front, c, rfl⟩ : ∃ front c, line = front ++ [c] :=
    ⟨line.dropLast, line.getLast hne, (List.dropLast_append_getLast hne).symm⟩
  rw [List.length_append, List.length_singleton] at hlen
  rw [List.append_assoc, fgetsLines, fgetsFrom_of_room [] front ([c] ++ rest)
    (fun h => hnl (List.mem_append_left _ h)) (by simp; omega)]
  simp only [List.nil_append, List.singleton_append, fgetsFrom, List.length_append, List.length_singleton]
  rw [if_pos (Or.inr (by omega)), cstrOf_eq_self hnul, fgetsLines]

/-- A string `fgets` returns has a newline at its end only. -/
theorem fgetsFrom_newline {n : Nat} {cur text line : List U8} (hcur : newline ∉ cur) (h : line ∈ fgetsFrom n cur text) :
    newline ∉ line.dropLast := by
  have hcut : ∀ buf : List U8, newline ∉ buf.dropLast → newline ∉ (cstrOf buf).dropLast := by
    intro buf hbuf hmem
    obtain ⟨cut, hcut⟩ : cstrOf buf <+: buf := List.takeWhile_prefix _
    by_cases hnone : cut = []
    · rw [hnone, List.append_nil] at hcut
      exact hbuf (hcut ▸ hmem)
    · rw [← hcut, List.dropLast_append_of_ne_nil hnone] at hbuf
      exact hbuf (List.mem_append_left _ (List.mem_of_mem_dropLast hmem))
  induction text generalizing cur with
  | nil =>
    rw [fgetsFrom] at h
    split at h
    · cases h
    · rw [List.mem_singleton.mp h]
      exact hcut cur fun hmem => hcur (List.mem_of_mem_dropLast hmem)
  | cons c rest ih =>
    rw [fgetsFrom] at h
    split at h
    · cases List.mem_cons.mp h with
      | inl heq =>
        rw [heq]
        apply hcut
        rw [List.dropLast_concat]
        exact hcur
      | inr hrest => exact ih List.not_mem_nil hrest
    · next hgo =>
      refine ih ?_ h
      intro hmem
      cases List.mem_append.mp hmem with
      | inl hmem => exact hcur hmem
      | inr hmem => exact hgo (Or.inl (List.mem_singleton.mp hmem).symm)

theorem fgetsLines_newline {n : Nat} {text line : List U8} (h : line ∈ fgetsLines n text) : newline ∉ line.dropLast :=
  fgetsFrom_newline List.not_mem_nil h

/-- The first `c` is in what stands before a `c`, or that one. -/
theorem strchr_append (before : CStr) (c : U8) (rest : CStr) :
    ∃ front, front <:+ before ∧ strchr (before ++ c :: rest) c = some (front ++ c :: rest) := by
  induction before with
  | nil => exact ⟨[], List.suffix_rfl, by simp [strchr]⟩
  | cons b before ih =>
    by_cases hb : b = c
    · exact ⟨b :: before, List.suffix_rfl, by simp [strchr, hb]⟩
    · obtain ⟨front, hsuffix, hfound⟩ := ih
      refine ⟨front, hsuffix.trans (List.suffix_cons b before), ?_⟩
      rw [← hfound, strchr, strchr, List.cons_append, List.dropWhile_cons_of_pos (by simp [hb])]

theorem strchr_of_notMem {before : CStr} {c : U8} (h : c ∉ before) (rest : CStr) :
    strchr (before ++ c :: rest) c = some (c :: rest) := by
  have hall : ∀ b ∈ before, decide (b ≠ c) = true := fun b hb => decide_eq_true fun heq => h (heq ▸ hb)
  rw [strchr, List.dropWhile_append_of_pos hall]
  simp

/-- A text is cut at its first `q` in one way only. -/
theorem cut_unique {q : U8} {a b a' b' : CStr} (ha : q ∉ a) (ha' : q ∉ a') (h : a ++ q :: b = a' ++ q :: b') :
    a = a' ∧ b = b' := by
  have htail : some (q :: b) = some (q :: b') := by
    rw [← strchr_of_notMem ha b, h, strchr_of_notMem ha' b']
  obtain ⟨-, rfl⟩ := List.cons.inj (Option.some.inj htail)
  exact ⟨List.append_cancel_right h, rfl⟩

/-- Two quotes found in a text that has only two: what is between them is the same. -/
theorem infix_quoted {q : U8} {a x b a' x' b' : CStr} (ha : q ∉ a) (hx : q ∉ x) (hb : q ∉ b) (hx' : q ∉ x')
    (h : a' ++ q :: (x' ++ q :: b') <:+: a ++ q :: (x ++ q :: b)) : a' <:+ a ∧ x' = x := by
  obtain ⟨pre, post, heq⟩ := h
  have hcount := congrArg (List.count q) heq
  simp only [List.count_append, List.count_cons_self, List.count_eq_zero_of_not_mem ha,
    List.count_eq_zero_of_not_mem hx, List.count_eq_zero_of_not_mem hb] at hcount
  have hfront : q ∉ pre ++ a' := by
    rw [← List.count_eq_zero, List.count_append]
    omega
  have hsplit : (pre ++ a') ++ q :: (x' ++ q :: (b' ++ post)) = a ++ q :: (x ++ q :: b) := by
    rw [← heq]
    simp
  obtain ⟨hbefore, hafter⟩ := cut_unique hfront ha hsplit
  exact ⟨⟨pre, hbefore⟩, (cut_unique hx' hx hafter).1⟩

theorem chomp_append_newline {line rest : List U8} (hnl : newline ∉ line) : chomp (line ++ newline :: rest) = line := by
  have hall : ∀ c ∈ line, decide (c ≠ newline) = true := fun c hc => decide_eq_true (fun h => hnl (h ▸ hc))
  rw [chomp, List.takeWhile_append_of_pos hall]
  simp

/-- Texts that are made of whole lines fall apart in one way only. -/
theorem unlines_injective {ls ms : List (List U8)} (hl : ∀ l ∈ ls, newline ∉ l) (hm : ∀ m ∈ ms, newline ∉ m)
    (h : ls.flatMap (· ++ [newline]) = ms.flatMap (· ++ [newline])) : ls = ms := by
  induction ls generalizing ms with
  | nil =>
    cases ms with
    | nil => rfl
    | cons m ms => simp at h
  | cons l ls ih =>
    cases ms with
    | nil => simp at h
    | cons m ms =>
      rw [List.forall_mem_cons] at hl hm
      simp only [List.flatMap_cons, List.append_assoc, List.singleton_append] at h
      have hline : l = m := by
        rw [← chomp_append_newline hl.1, h]
        exact chomp_append_newline hm.1
      rw [hline] at h ⊢
      rw [ih hl.2 hm.2 (List.cons.inj (List.append_cancel_left h)).2]

theorem chomp_eq_self {line : List U8} (hnl : newline ∉ line) : chomp line = line := by
  rw [chomp, List.takeWhile_eq_self_iff]
  exact fun c hc => decide_eq_true (fun h => hnl (h ▸ hc))

end SentinelStack.Lib
