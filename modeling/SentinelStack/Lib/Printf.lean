import SentinelStack.Lib.CText

/- Numbers as `printf` writes them and `strtoul`, `strtol` and `%lx` read them
   back, in the middle of a text: whatever follows, as long as it does not begin
   with another digit (`Stops`).

   `strtoul_fmtDec`, `strtol_fmtInt` and `scanHex_fmtHex` are the round trips. -/
namespace SentinelStack.Lib

/-- `%lx`. -/
def fmtHex (n : Nat) : CStr := (Nat.toDigits 16 n).map fun c => BitVec.ofNat 8 c.toNat

/-- `%ld`. -/
def fmtInt (i : Int) : CStr := if i < 0 then 0x2D :: fmtDec i.natAbs else fmtDec i.natAbs

/-- `%03ld` and its kind: filled up with zeros to the width. -/
def fmtDecPadded (width n : Nat) : CStr := List.replicate (width - (fmtDec n).length) 0x30 ++ fmtDec n

/-- `strtoul(s, NULL, 10)`: white space, a sign and digits, saturating. -/
def strtoul (s : CStr) : U64 :=
  let sign := takeSign (s.dropWhile isSpace)
  let n := takeDec sign.2
  if n ≥ 2 ^ 64 then BitVec.allOnes 64
  else if sign.1 then -BitVec.ofNat 64 n else BitVec.ofNat 64 n

/-- The text is at its end, or goes on with a character that is not one of `p`. -/
def Stops (p : U8 → Bool) (rest : CStr) : Prop := ∀ c ∈ rest.head?, p c = false

/-! Decimal numbers. -/

theorem takeDec_fmtDec_append (n : Nat) {rest : CStr} (h : Stops isDecDigit rest) : takeDec (fmtDec n ++ rest) = n := by
  have hrest : rest.takeWhile isDecDigit = [] := by
    cases rest with
    | nil => rfl
    | cons c rest => exact List.takeWhile_cons_of_neg (by rw [h c rfl]; exact Bool.false_ne_true)
  have hround := takeDec_fmtDec n
  have hdigits := isDecDigit_of_mem_fmtDec n
  unfold takeDec at hround ⊢
  rw [List.takeWhile_append_of_pos hdigits, hrest, List.append_nil]
  rwa [List.takeWhile_eq_self_iff.mpr hdigits] at hround

/-- A number begins with no white space and no sign. -/
theorem takeSign_fmtDec (n : Nat) (rest : CStr) :
    takeSign ((fmtDec n ++ rest).dropWhile isSpace) = (false, fmtDec n ++ rest) := by
  have hdigit := isDecDigit_of_mem_fmtDec n
  cases hs : fmtDec n with
  | nil => exact absurd hs (fmtDec_ne_nil n)
  | cons c ds =>
    rw [hs] at hdigit
    obtain ⟨hspace, hminus, hplus, -, -⟩ := isDecDigit_spec (hdigit c List.mem_cons_self)
    rw [List.cons_append, List.dropWhile_cons_of_neg (by simp [hspace]), takeSign, if_neg hminus, if_neg hplus]

theorem strtoul_fmtDec {n : Nat} (hn : n < 2 ^ 64) {rest : CStr} (h : Stops isDecDigit rest) :
    strtoul (fmtDec n ++ rest) = BitVec.ofNat 64 n := by
  unfold strtoul
  rw [takeSign_fmtDec]
  dsimp only
  rw [takeDec_fmtDec_append n h, if_neg (by omega), if_neg Bool.false_ne_true]

theorem strtol_fmtInt {i : Int} (hlow : -(2 ^ 63) ≤ i) (hhigh : i < 2 ^ 63) {rest : CStr} (h : Stops isDecDigit rest) :
    strtol (fmtInt i ++ rest) = i := by
  unfold strtol fmtInt
  by_cases hneg : i < 0
  · have hminus : takeSign ((0x2D :: (fmtDec i.natAbs ++ rest)).dropWhile isSpace) = (true, fmtDec i.natAbs ++ rest) := by
      rfl
    rw [if_pos hneg, List.cons_append, hminus]
    dsimp only
    rw [if_pos rfl, takeDec_fmtDec_append _ h]
    omega
  · rw [if_neg hneg, takeSign_fmtDec]
    dsimp only
    rw [if_neg Bool.false_ne_true, takeDec_fmtDec_append _ h]
    omega

theorem fmtDec_inj {m n : Nat} (h : fmtDec m = fmtDec n) : m = n := by
  rw [← takeDec_fmtDec m, ← takeDec_fmtDec n, h]

/-- A number in a text ends where its digits do. -/
theorem fmtDec_append_inj {m n : Nat} {rest tail : CStr} (hrest : Stops isDecDigit rest) (htail : Stops isDecDigit tail)
    (h : fmtDec m ++ rest = fmtDec n ++ tail) : m = n ∧ rest = tail := by
  have hnum : m = n := by
    rw [← takeDec_fmtDec_append m hrest, h]
    exact takeDec_fmtDec_append n htail
  rw [hnum] at h
  exact ⟨hnum, List.append_cancel_left h⟩

/-- `%u`. -/
theorem length_fmtDec_u32 (x : U32) : (fmtDec x.toNat).length ≤ 10 :=
  length_fmtDec_le (by decide) (Nat.lt_of_lt_of_le x.isLt (by decide))

/-- `%lu`. -/
theorem length_fmtDec_u64 (x : U64) : (fmtDec x.toNat).length ≤ 20 :=
  length_fmtDec_le (by decide) (Nat.lt_of_lt_of_le x.isLt (by decide))

theorem length_fmtInt_le {i : Int} (h : i.natAbs < 10 ^ 19) : (fmtInt i).length ≤ 20 := by
  have hlen := length_fmtDec_le (k := 19) (by omega) h
  unfold fmtInt
  split
  · rw [List.length_cons]
    omega
  · omega

theorem length_fmtDecPadded {width n : Nat} (hw : 0 < width) (hn : n < 10 ^ width) :
    (fmtDecPadded width n).length = width := by
  have hlen := length_fmtDec_le hw hn
  rw [fmtDecPadded, List.length_append, List.length_replicate]
  omega

theorem mem_fmtDecPadded {width n : Nat} {c : U8} (h : c ∈ fmtDecPadded width n) : isDecDigit c = true := by
  rcases List.mem_append.mp h with hzero | hdigit
  · rw [List.eq_of_mem_replicate hzero]
    decide
  · exact isDecDigit_of_mem_fmtDec n c hdigit

theorem oneLine_fmtInt (i : Int) : OneLine (fmtInt i) := by
  unfold fmtInt
  split
  · exact oneLine_cons.mpr ⟨by decide, oneLine_fmtDec _⟩
  · exact oneLine_fmtDec _

theorem oneLine_fmtDecPadded (width n : Nat) : OneLine (fmtDecPadded width n) := by
  refine oneLine_append.mpr ⟨fun c hc => ?_, oneLine_fmtDec n⟩
  rw [List.eq_of_mem_replicate hc]
  decide

/-! Hexadecimal numbers. -/

theorem hexValue_digitChar {d : Nat} (h : d < 16) : hexValue (BitVec.ofNat 8 (Nat.digitChar d).toNat) = some d := by
  revert d
  decide

theorem fmtHex_of_lt {n : Nat} (h : n < 16) : fmtHex n = [BitVec.ofNat 8 (Nat.digitChar n).toNat] := by
  rw [fmtHex, Nat.toDigits_of_lt_base h, List.map_singleton]

theorem fmtHex_of_le {n : Nat} (h : 16 ≤ n) :
    fmtHex n = fmtHex (n / 16) ++ [BitVec.ofNat 8 (Nat.digitChar (n % 16)).toNat] := by
  rw [fmtHex, Nat.toDigits_of_base_le (by omega) h, List.map_append, List.map_singleton, fmtHex]

/-- The digits at the front of a text are read as the number. -/
theorem takeHex_fmtHex (n : Nat) (any : Bool) (rest : CStr) : takeHex 0 any (fmtHex n ++ rest) = takeHex n true rest := by
  induction n using Nat.strong_induction_on generalizing rest with
  | _ n ih =>
    by_cases hn : n < 16
    · rw [fmtHex_of_lt hn, List.singleton_append, takeHex, hexValue_digitChar hn]
      dsimp only
      rw [Nat.mul_zero, Nat.zero_add]
    · -- the last digit is read after the ones before it
      have hlast : takeHex (n / 16) true (BitVec.ofNat 8 (Nat.digitChar (n % 16)).toNat :: rest) = takeHex n true rest := by
        rw [takeHex, hexValue_digitChar (Nat.mod_lt n (by omega))]
        dsimp only
        rw [Nat.div_add_mod]
      rw [fmtHex_of_le (by omega), List.append_assoc, List.singleton_append, ih (n / 16) (by omega), hlast]

theorem isSome_hexValue_of_mem_fmtHex (n : Nat) : ∀ c ∈ fmtHex n, (hexValue c).isSome := by
  induction n using Nat.strong_induction_on with
  | _ n ih =>
    by_cases h : n < 16
    · rw [fmtHex_of_lt h]
      intro c hc
      rw [List.mem_singleton.mp hc, hexValue_digitChar h]
      rfl
    · rw [fmtHex_of_le (by omega)]
      intro c hc
      rcases List.mem_append.mp hc with hc | hc
      · exact ih (n / 16) (by omega) c hc
      · rw [List.mem_singleton.mp hc, hexValue_digitChar (Nat.mod_lt n (by omega))]
        rfl

theorem oneLine_fmtHex (n : Nat) : OneLine (fmtHex n) := by
  intro c hc
  have hdigit := isSome_hexValue_of_mem_fmtHex n c hc
  refine ⟨?_, ?_⟩
  · rintro rfl
    cases hdigit
  · rintro rfl
    cases hdigit

theorem length_fmtHex_le {n k : Nat} (hk : 0 < k) (h : n < 16 ^ k) : (fmtHex n).length ≤ k := by
  rw [fmtHex, List.length_map]
  exact (Nat.length_toDigits_le_iff (by omega) hk).mpr h

theorem scanHex_fmtHex (x : U64) {rest : CStr} (h : Stops (fun c => (hexValue c).isSome) rest) :
    scanHex (ascii "0x" ++ fmtHex x.toNat ++ rest) = some (x, rest) := by
  have hx := x.isLt
  have hsign : takeSign ((ascii "0x" ++ fmtHex x.toNat ++ rest).dropWhile isSpace) =
      (false, ascii "0x" ++ fmtHex x.toNat ++ rest) := rfl
  have hdrop : dropHexPrefix (ascii "0x" ++ fmtHex x.toNat ++ rest) = fmtHex x.toNat ++ rest := rfl
  have htake : takeHex x.toNat true rest = some (x.toNat, rest) := by
    cases rest with
    | nil => rfl
    | cons c rest =>
      have hc : hexValue c = none := Option.isSome_eq_false_iff.mp (h c rfl) |> Option.isNone_iff_eq_none.mp
      rw [takeHex, hc]
      rfl
  unfold scanHex
  rw [hsign]
  dsimp only
  rw [hdrop, takeHex_fmtHex, htake]
  dsimp only
  rw [if_neg (by omega), if_neg Bool.false_ne_true, BitVec.ofNat_toNat, BitVec.setWidth_eq]

end SentinelStack.Lib
