import Mathlib.Data.BitVec

/- Aligned blocks of `2 ^ k` bytes in a machine-word address space. `alignDown`
   and `alignUp` are the mask idioms `x & ~(2^k - 1)` and
   `(x + 2^k - 1) & ~(2^k - 1)`; `Touches` is what they are used for, that an
   interval has a byte in the block of an address. -/
namespace SentinelStack.Lib

variable {w : Nat}

/-- `x & ~(2^k - 1)`. -/
def alignDown (k : Nat) (x : BitVec w) : BitVec w := x &&& ~~~ BitVec.ofNat w (2 ^ k - 1)

/-- `(x + 2^k - 1) & ~(2^k - 1)`, wrapping like the sum does. -/
def alignUp (k : Nat) (x : BitVec w) : BitVec w := alignDown k (x + BitVec.ofNat w (2 ^ k - 1))

/-- Some address of `[lo, hi)` lies in the `s`-byte block of `a`. -/
def Touches (s lo hi a : Nat) : Prop := ∃ b, lo ≤ b ∧ b < hi ∧ b / s = a / s

theorem alignDown_eq_shift (k : Nat) (x : BitVec w) : alignDown k x = (x >>> k) <<< k := by
  ext i hi
  have hmask : (BitVec.ofNat w (2 ^ k - 1))[i] = decide (i < k) := by
    rw [← BitVec.getLsbD_eq_getElem, BitVec.getLsbD_ofNat, Nat.testBit_two_pow_sub_one]
    simp [hi]
  simp only [alignDown, BitVec.getElem_and, BitVec.getElem_not, BitVec.getElem_shiftLeft, hmask]
  by_cases h : i < k
  · simp [h]
  · have hik : k + (i - k) = i := by omega
    simp [h, hik, BitVec.getLsbD_eq_getElem hi]

theorem toNat_alignDown (k : Nat) (x : BitVec w) : (alignDown k x).toNat = x.toNat / 2 ^ k * 2 ^ k := by
  have hle : x.toNat / 2 ^ k * 2 ^ k < 2 ^ w := (Nat.div_mul_le_self ..).trans_lt x.isLt
  rw [alignDown_eq_shift, BitVec.toNat_shiftLeft, BitVec.toNat_ushiftRight, Nat.shiftRight_eq_div_pow,
    Nat.shiftLeft_eq, Nat.mod_eq_of_lt hle]

/-- The field of `n` bits from bit `k` on, in its place. -/
theorem toNat_and_field (k n : Nat) (h : k + n ≤ w) (x : BitVec w) :
    (x &&& BitVec.ofNat w ((2 ^ n - 1) * 2 ^ k)).toNat = x.toNat / 2 ^ k % 2 ^ n * 2 ^ k := by
  have hmask : (2 ^ n - 1) * 2 ^ k < 2 ^ w := by
    have hle : 2 ^ (k + n) ≤ 2 ^ w := Nat.pow_le_pow_right (by omega) h
    have hpos := Nat.two_pow_pos n
    have hlt : (2 ^ n - 1) * 2 ^ k < 2 ^ n * 2 ^ k := Nat.mul_lt_mul_of_pos_right (by omega) (Nat.two_pow_pos k)
    rw [← Nat.pow_add, Nat.add_comm] at hlt
    omega
  rw [BitVec.toNat_and, BitVec.toNat_ofNat, Nat.mod_eq_of_lt hmask]
  apply Nat.eq_of_testBit_eq
  intro i
  rw [Nat.testBit_and, Nat.testBit_mul_two_pow, Nat.testBit_mul_two_pow, Nat.testBit_two_pow_sub_one,
    Nat.testBit_mod_two_pow, Nat.testBit_div_two_pow]
  by_cases hi : k ≤ i
  · simp [hi, Bool.and_comm]
  · simp [hi]

theorem and_bit_ne_zero_iff (k : Nat) (h : k < w) (x : BitVec w) :
    x &&& BitVec.ofNat w (2 ^ k) ≠ 0 ↔ x.toNat / 2 ^ k % 2 = 1 := by
  have hfield := toNat_and_field k 1 (by omega) x
  rw [show (2 ^ 1 - 1) * 2 ^ k = 2 ^ k by omega, Nat.pow_one] at hfield
  have hzero : (0 : BitVec w).toNat = 0 := by simp
  have hpos := Nat.two_pow_pos k
  rw [ne_eq, ← BitVec.toNat_inj, hfield, hzero, Nat.mul_eq_zero]
  omega

theorem and_bit_ne_zero_iff_getLsbD (k : Nat) (h : k < w) (x : BitVec w) :
    x &&& BitVec.ofNat w (2 ^ k) ≠ 0 ↔ x.getLsbD k = true := by
  rw [and_bit_ne_zero_iff k h, ← BitVec.testBit_toNat, Nat.testBit_eq_decide_div_mod_eq, decide_eq_true_iff]

theorem touches_iff {s lo hi a : Nat} (hs : 0 < s) (h : lo < hi) :
    Touches s lo hi a ↔ lo / s ≤ a / s ∧ a / s ≤ (hi - 1) / s := by
  constructor
  · rintro ⟨b, hlo, hhi, hb⟩
    exact ⟨hb ▸ Nat.div_le_div_right hlo, hb ▸ Nat.div_le_div_right (by omega)⟩
  · rintro ⟨hlo, hhi⟩
    -- the first address of the block, or of the interval when the block starts before it
    refine ⟨max lo (a / s * s), le_max_left .., ?_, ?_⟩
    · have : a / s * s ≤ hi - 1 := (Nat.mul_le_mul_right s hhi).trans (Nat.div_mul_le_self ..)
      omega
    · rcases le_total lo (a / s * s) with hle | hle
      · rw [max_eq_right hle, Nat.mul_div_cancel _ hs]
      · rw [max_eq_left hle]
        refine le_antisymm hlo ?_
        have := Nat.div_le_div_right (c := s) hle
        rwa [Nat.mul_div_cancel _ hs] at this

instance {s lo hi a : Nat} [NeZero s] : Decidable (Touches s lo hi a) :=
  if h : lo < hi then decidable_of_iff _ (touches_iff (Nat.pos_of_neZero s) h).symm
  else isFalse (fun ⟨_, _, _, _⟩ => by omega)

/-- The mask test for a block of `[lo, hi)`, when rounding `hi` up does not wrap. -/
theorem aligned_iff_touches {k : Nat} {lo hi a : BitVec w} (h : lo < hi) (hfit : hi.toNat + (2 ^ k - 1) < 2 ^ w) :
    alignDown k lo ≤ a ∧ a < alignUp k hi ↔ Touches (2 ^ k) lo.toNat hi.toNat a.toNat := by
  have hs : 0 < 2 ^ k := Nat.two_pow_pos k
  have hlt : lo.toNat < hi.toNat := h
  have hsum : (hi + BitVec.ofNat w (2 ^ k - 1)).toNat = hi.toNat + (2 ^ k - 1) := by
    rw [BitVec.toNat_add, BitVec.toNat_ofNat, Nat.mod_eq_of_lt (a := 2 ^ k - 1) (by omega), Nat.mod_eq_of_lt hfit]
  have hup : (hi.toNat + (2 ^ k - 1)) / 2 ^ k = (hi.toNat - 1) / 2 ^ k + 1 := by
    rw [← Nat.add_div_right _ hs]
    congr 1
    omega
  rw [touches_iff hs hlt, BitVec.le_def, BitVec.lt_def, toNat_alignDown, alignUp, toNat_alignDown, hsum, hup,
    ← Nat.le_div_iff_mul_le hs, ← Nat.div_lt_iff_lt_mul hs, Nat.lt_succ_iff]

/-- When rounding `hi` up wraps, the mask test accepts nothing. -/
theorem alignUp_eq_zero {k : Nat} {hi : BitVec w} (hk : k ≤ w) (hwrap : 2 ^ w ≤ hi.toNat + (2 ^ k - 1)) :
    alignUp k hi = 0 := by
  have hs : 0 < 2 ^ k := Nat.two_pow_pos k
  have hkw : 2 ^ k ≤ 2 ^ w := Nat.pow_le_pow_right (by decide) hk
  have hlt := hi.isLt
  have hsum : (hi + BitVec.ofNat w (2 ^ k - 1)).toNat = hi.toNat + (2 ^ k - 1) - 2 ^ w := by
    rw [BitVec.toNat_add, BitVec.toNat_ofNat, Nat.mod_eq_of_lt (a := 2 ^ k - 1) (by omega),
      Nat.mod_eq_sub_mod hwrap, Nat.mod_eq_of_lt (by omega)]
  apply BitVec.eq_of_toNat_eq
  rw [alignUp, toNat_alignDown, hsum, Nat.div_eq_of_lt (by omega)]
  simp

/-- The addresses `a`, `a + step`, … below `e`, over at most `fuel` turns of the loop, and
    whether the loop ended by then. -/
def stepLoop (step : BitVec w) : (fuel : Nat) → (a e : BitVec w) → List (BitVec w) × Bool
  | 0, a, e => ([], e ≤ a)
  | fuel + 1, a, e =>
    if a < e then
      let rest := stepLoop step fuel (a + step) e
      (a :: rest.1, rest.2)
    else ([], true)

section stepLoop
variable {k : Nat} (hk : k ≤ w)
include hk

/-- A loop over blocks whose end lies in the last block of the address space does not end. -/
theorem stepLoop_unfinished {a e : BitVec w} (fuel : Nat) (ha : a.toNat % 2 ^ k = 0)
    (he : 2 ^ w - 2 ^ k < e.toNat) : (stepLoop (BitVec.ofNat w (2 ^ k)) fuel a e).2 = false := by
  obtain ⟨m, rfl⟩ := Nat.exists_eq_add_of_le hk
  have hs : 0 < 2 ^ k := Nat.two_pow_pos k
  have hw : 2 ^ (k + m) = 2 ^ k * 2 ^ m := Nat.pow_add ..
  -- an aligned address is at most the start of the last block
  have hlast : ∀ b : BitVec (k + m), b.toNat % 2 ^ k = 0 → b < e := by
    intro b hb
    obtain ⟨q, hq⟩ := Nat.dvd_of_mod_eq_zero hb
    have hlt := b.isLt
    have hqm : q < 2 ^ m := by
      rw [hq, hw] at hlt
      exact Nat.lt_of_mul_lt_mul_left hlt
    have hmul : 2 ^ k * q + 2 ^ k ≤ 2 ^ (k + m) := by
      rw [hw, ← Nat.mul_succ]
      exact Nat.mul_le_mul_left _ hqm
    rw [BitVec.lt_def]
    omega
  induction fuel generalizing a with
  | zero =>
    have := hlast a ha
    simp only [stepLoop, decide_eq_false_iff_not]
    exact BitVec.not_le.mpr this
  | succ fuel ih =>
    rw [stepLoop, if_pos (hlast a ha)]
    refine ih ?_
    rw [BitVec.toNat_add, hw, Nat.mod_mul_right_mod, BitVec.toNat_ofNat, hw, Nat.add_mod, Nat.mod_mul_right_mod, ha]
    simp

omit hk in
theorem next_block {a e : BitVec w} (hlt : a.toNat < e.toNat) (he : e.toNat ≤ 2 ^ w - 2 ^ k) :
    (a + BitVec.ofNat w (2 ^ k)).toNat = a.toNat + 2 ^ k ∧
      (a + BitVec.ofNat w (2 ^ k)).toNat / 2 ^ k = a.toNat / 2 ^ k + 1 := by
  have hadd : (a + BitVec.ofNat w (2 ^ k)).toNat = a.toNat + 2 ^ k := by
    rw [BitVec.toNat_add, BitVec.toNat_ofNat, Nat.mod_eq_of_lt (a := 2 ^ k) (by omega), Nat.mod_eq_of_lt (by omega)]
  exact ⟨hadd, by rw [hadd, Nat.add_div_right _ (Nat.two_pow_pos k)]⟩

omit hk in
theorem no_block_of_le {a e x s : Nat} (hstart : a / s * s = a) (hle : e ≤ a) :
    ¬ (a / s ≤ x / s ∧ x / s * s < e) := by
  rintro ⟨hx, hlt⟩
  have hmul := Nat.mul_le_mul_right s hx
  omega

/-- The blocks a finished loop visits: from the block of its start on, those that begin
    before the end. -/
theorem stepLoop_block_iff {a e : BitVec w} (fuel : Nat) (ha : a.toNat % 2 ^ k = 0)
    (hfin : (stepLoop (BitVec.ofNat w (2 ^ k)) fuel a e).2 = true) (x : Nat) :
    (∃ b ∈ (stepLoop (BitVec.ofNat w (2 ^ k)) fuel a e).1, b.toNat / 2 ^ k = x / 2 ^ k) ↔
      a.toNat / 2 ^ k ≤ x / 2 ^ k ∧ x / 2 ^ k * 2 ^ k < e.toNat := by
  have hs : 0 < 2 ^ k := Nat.two_pow_pos k
  have he : e.toNat ≤ 2 ^ w - 2 ^ k := by
    by_contra hlt
    rw [stepLoop_unfinished hk fuel ha (by omega)] at hfin
    cases hfin
  have hstart : a.toNat / 2 ^ k * 2 ^ k = a.toNat := Nat.div_mul_cancel (Nat.dvd_of_mod_eq_zero ha)
  induction fuel generalizing a with
  | zero =>
    have hle : e ≤ a := by simpa [stepLoop] using hfin
    exact iff_of_false (by simp [stepLoop]) (no_block_of_le hstart hle)
  | succ fuel ih =>
    rw [stepLoop] at hfin ⊢
    split at hfin
    · next hlt =>
      rw [if_pos hlt]
      rw [BitVec.lt_def] at hlt
      obtain ⟨hadd, hdiv⟩ := next_block hlt he
      have hrest := ih (by rw [hadd, Nat.add_mod_right, ha]) hfin (by rw [hdiv, Nat.succ_mul, hstart, hadd])
      simp only [List.mem_cons, or_and_right, exists_or, exists_eq_left]
      refine (or_congr_right hrest).trans ?_
      rw [hdiv]
      constructor
      · intro h
        cases h with
        | inl h => exact ⟨h.le, by rw [← h, hstart]; exact hlt⟩
        | inr h => exact ⟨by omega, h.2⟩
      · intro h
        by_cases heq : a.toNat / 2 ^ k = x / 2 ^ k
        · exact Or.inl heq
        · exact Or.inr ⟨by omega, h.2⟩
    · next hge =>
      rw [if_neg hge]
      exact iff_of_false (by simp) (no_block_of_le hstart (BitVec.not_lt.mp hge))

/-- **The loop over the blocks of an interval** visits those it touches. -/
theorem stepLoop_touches_iff {lo e : BitVec w} (fuel : Nat) (h : lo < e)
    (hfin : (stepLoop (BitVec.ofNat w (2 ^ k)) fuel (alignDown k lo) e).2 = true) (x : Nat) :
    (∃ b ∈ (stepLoop (BitVec.ofNat w (2 ^ k)) fuel (alignDown k lo) e).1, b.toNat / 2 ^ k = x / 2 ^ k) ↔
      Touches (2 ^ k) lo.toNat e.toNat x := by
  have hs : 0 < 2 ^ k := Nat.two_pow_pos k
  have hlt : lo.toNat < e.toNat := h
  have halign : (alignDown k lo).toNat % 2 ^ k = 0 := by rw [toNat_alignDown, Nat.mul_mod_left]
  have hend : x / 2 ^ k ≤ (e.toNat - 1) / 2 ^ k ↔ x / 2 ^ k * 2 ^ k < e.toNat := by
    rw [Nat.le_div_iff_mul_le hs]
    omega
  rw [stepLoop_block_iff hk fuel halign hfin, touches_iff hs hlt, toNat_alignDown, Nat.mul_div_cancel _ hs, hend]

omit hk in
/-- An aligned place is before the end exactly while a block is left. -/
theorem lt_end_iff_block {a e : Nat} (ha : a % 2 ^ k = 0) : a < e ↔ a / 2 ^ k < (e + (2 ^ k - 1)) / 2 ^ k := by
  have hs : 0 < 2 ^ k := Nat.two_pow_pos k
  have hstart : 2 ^ k * (a / 2 ^ k) + a % 2 ^ k = a := Nat.div_add_mod a (2 ^ k)
  have hceil : a / 2 ^ k < (e + (2 ^ k - 1)) / 2 ^ k ↔ (a / 2 ^ k + 1) * 2 ^ k ≤ e + (2 ^ k - 1) :=
    Nat.le_div_iff_mul_le hs
  rw [hceil, Nat.add_mul, Nat.mul_comm (a / 2 ^ k)]
  omega

omit hk in
/-- How many blocks the loop visits when its end is before the last block of the address space. -/
theorem stepLoop_count {a e : BitVec w} (fuel : Nat) (ha : a.toNat % 2 ^ k = 0) (he : e.toNat ≤ 2 ^ w - 2 ^ k)
    (hfuel : (e.toNat + (2 ^ k - 1)) / 2 ^ k - a.toNat / 2 ^ k ≤ fuel) :
    (stepLoop (BitVec.ofNat w (2 ^ k)) fuel a e).2 = true ∧
      (stepLoop (BitVec.ofNat w (2 ^ k)) fuel a e).1.length = (e.toNat + (2 ^ k - 1)) / 2 ^ k - a.toNat / 2 ^ k := by
  induction fuel generalizing a with
  | zero =>
    have hge : e.toNat ≤ a.toNat := by
      rw [← Nat.not_lt, lt_end_iff_block ha]
      omega
    rw [stepLoop]
    exact ⟨decide_eq_true (BitVec.le_def.mpr hge), by simp; omega⟩
  | succ fuel ih =>
    rw [stepLoop]
    split
    next hlt =>
      rw [BitVec.lt_def] at hlt
      have hblock := (lt_end_iff_block ha).mp hlt
      obtain ⟨hadd, hdiv⟩ := next_block hlt he
      obtain ⟨hfin, hlen⟩ := @ih (a + BitVec.ofNat w (2 ^ k)) (by rw [hadd, Nat.add_mod_right, ha]) (by omega)
      refine ⟨hfin, ?_⟩
      rw [List.length_cons, hlen, hdiv]
      omega
    next hge =>
      have hnone := mt (lt_end_iff_block ha).mpr hge
      exact ⟨rfl, by simp; omega⟩

end stepLoop

end SentinelStack.Lib
