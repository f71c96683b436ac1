import SentinelStack.Lib.CTypes

/- FNV-1a over words of any width, and why it tells strings apart that differ in
   one byte: a step is injective in the word and in the byte, as the multiplier has
   an inverse. A fold whose steps are of that kind carries the difference from the
   byte to the end of the string (`foldl_ne_of_differAt`). A string hashed in parts
   is hashed as a whole (`fnv1a_append`), whatever the parts. -/
namespace SentinelStack.Lib

/-! Folds that forget nothing. -/

/-- The lists are of one length and differ at index `i` alone. -/
structure DifferAt {α : Type*} (i : Nat) (xs ys : List α) : Prop where
  length_eq : xs.length = ys.length
  differ : xs[i]? ≠ ys[i]?
  same : ∀ j, j ≠ i → xs[j]? = ys[j]?

section
variable {α β : Type*} {f : β → α → β}

theorem foldl_injective (hstate : ∀ a, Function.Injective (f · a)) (xs : List α) :
    Function.Injective (xs.foldl f) := by
  induction xs with
  | nil => exact Function.injective_id
  | cons a rest ih => exact ih.comp (hstate a)

/-- **One element replaced**, another state at the end. -/
theorem foldl_ne_of_differAt (hstate : ∀ a, Function.Injective (f · a)) (hstep : ∀ b, Function.Injective (f b))
    {i : Nat} {xs ys : List α} (h : DifferAt i xs ys) (b : β) : xs.foldl f b ≠ ys.foldl f b := by
  induction xs generalizing i ys b with
  | nil =>
    have hnil : ys = [] := List.eq_nil_of_length_eq_zero h.length_eq.symm
    exact absurd (by rw [hnil]) h.differ
  | cons x xs ih =>
    cases ys with
    | nil => exact absurd h.length_eq (by simp)
    | cons y ys =>
      have hlen : xs.length = ys.length := Nat.succ.inj h.length_eq
      rw [List.foldl_cons, List.foldl_cons]
      cases i with
      | zero =>
        -- the heads differ, and what follows them is the same
        have hhead : x ≠ y := by
          intro heq
          apply h.differ
          rw [List.getElem?_cons_zero, List.getElem?_cons_zero, heq]
        have htail : xs = ys := by
          apply List.ext_getElem?
          intro j
          simpa using h.same (j + 1) (by omega)
        rw [htail]
        intro heq
        exact hhead (hstep b (foldl_injective hstate ys heq))
      | succ i =>
        have hhead : x = y := by simpa using h.same 0 (by omega)
        have htail : DifferAt i xs ys := by
          refine ⟨hlen, by simpa using h.differ, fun j hj => ?_⟩
          simpa using h.same (j + 1) (by omega)
        rw [hhead]
        exact ih htail (f b y)

end

/-! The hash. -/

variable {w : Nat}

def fnv1aStep (prime h : BitVec w) (b : U8) : BitVec w := (h ^^^ b.setWidth w) * prime

/-- The hash of a string, from the value `h` on. -/
def fnv1a (prime h : BitVec w) (bytes : List U8) : BitVec w := bytes.foldl (fnv1aStep prime) h

theorem fnv1a_append (prime h : BitVec w) (xs ys : List U8) :
    fnv1a prime h (xs ++ ys) = fnv1a prime (fnv1a prime h xs) ys := List.foldl_append

section
variable {prime inverse : BitVec w} (hunit : prime * inverse = 1)
include hunit

theorem mul_prime_injective : Function.Injective (· * prime) := by
  intro a b hab
  calc
    a = a * prime * inverse := by rw [mul_assoc, hunit, mul_one]
    _ = b * prime * inverse := congrArg (· * inverse) hab
    _ = b := by rw [mul_assoc, hunit, mul_one]

theorem fnv1aStep_word_injective (b : U8) : Function.Injective (fnv1aStep prime · b) := by
  intro h h' heq
  exact (BitVec.xor_left_inj (b.setWidth w)).mp (mul_prime_injective hunit heq)

theorem fnv1aStep_byte_injective (hw : 8 ≤ w) (h : BitVec w) : Function.Injective (fnv1aStep prime h) := by
  intro b b' heq
  have hwide : b.setWidth w = b'.setWidth w := (BitVec.xor_right_inj h).mp (mul_prime_injective hunit heq)
  apply BitVec.eq_of_toNat_eq
  have htoNat := congrArg BitVec.toNat hwide
  rwa [BitVec.toNat_setWidth_of_le hw, BitVec.toNat_setWidth_of_le hw] at htoNat

/-- **One byte changed, another hash.** -/
theorem fnv1a_ne_of_differAt (hw : 8 ≤ w) {i : Nat} {xs ys : List U8} (h : DifferAt i xs ys) (start : BitVec w) :
    fnv1a prime start xs ≠ fnv1a prime start ys :=
  foldl_ne_of_differAt (fnv1aStep_word_injective hunit) (fnv1aStep_byte_injective hunit hw) h start

end

end SentinelStack.Lib
