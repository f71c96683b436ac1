import Mathlib.Data.List.Basic

/- Binary search with a test of its own: at each place it turns left or right, or
   stops there. Where the turns are those towards a boundary, the places it looks at
   depend on the boundary alone (`probes`), and the search returns the first of them
   where the test stops (`bisect_eq_find`). The last place before the boundary is
   always among them (`last_mem_probes`); any other may be passed over. -/
namespace SentinelStack.Lib

inductive Turn where
  | left
  | right
  | here
  deriving DecidableEq, Repr

def bisect (turn : Nat → Turn) : (fuel : Nat) → (lo hi : Int) → Option Nat
  | 0, _, _ => none
  | fuel + 1, lo, hi =>
    if lo ≤ hi then
      match turn ((lo + hi) / 2).toNat with
      | .left => bisect turn fuel lo ((lo + hi) / 2 - 1)
      | .right => bisect turn fuel ((lo + hi) / 2 + 1) hi
      | .here => some ((lo + hi) / 2).toNat
    else none

/-- The places a search looks at that turns left exactly from `rank` on. -/
def probes (rank : Nat) : (fuel : Nat) → (lo hi : Int) → List Nat
  | 0, _, _ => []
  | fuel + 1, lo, hi =>
    if lo ≤ hi then
      ((lo + hi) / 2).toNat ::
        if rank ≤ ((lo + hi) / 2).toNat then probes rank fuel lo ((lo + hi) / 2 - 1)
        else probes rank fuel ((lo + hi) / 2 + 1) hi
    else []

/-- The search returns the first place on the way where the test stops. -/
theorem bisect_eq_find {turn : Nat → Turn} {rank : Nat} (hturn : ∀ i, turn i = .left ↔ rank ≤ i)
    (fuel : Nat) (lo hi : Int) :
    bisect turn fuel lo hi = (probes rank fuel lo hi).find? fun i => turn i = .here := by
  induction fuel generalizing lo hi with
  | zero => rfl
  | succ fuel ih =>
    rw [bisect, probes]
    split
    · have hmid := hturn ((lo + hi) / 2).toNat
      rw [List.find?_cons]
      cases ht : turn ((lo + hi) / 2).toNat with
      | left =>
        rw [ht] at hmid
        rw [if_pos (hmid.mp rfl)]
        exact ih lo ((lo + hi) / 2 - 1)
      | right =>
        rw [ht] at hmid
        rw [if_neg fun hle => nomatch hmid.mpr hle]
        exact ih ((lo + hi) / 2 + 1) hi
      | here => rfl
    · rfl

theorem last_mem_probes (rank fuel : Nat) (lo hi : Int) (hnonneg : 0 ≤ lo) (hlo : lo < rank) (hhi : rank ≤ hi + 1)
    (hfuel : hi - lo < fuel) : rank - 1 ∈ probes rank fuel lo hi := by
  induction fuel generalizing lo hi with
  | zero => omega
  | succ fuel ih =>
    rw [probes, if_pos (by omega), List.mem_cons]
    by_cases hlast : rank - 1 = ((lo + hi) / 2).toNat
    · exact Or.inl hlast
    · right
      split
      · exact ih _ _ hnonneg hlo (by omega) (by omega)
      · exact ih _ _ (by omega) (by omega) hhi (by omega)

/-- In a list where `P` only stops holding, the places of `P` are those below its count. -/
theorem lt_countP_iff {α : Type*} {P : α → Bool} {l : List α} (hl : l.Pairwise fun a b => P b → P a)
    {i : Nat} {a : α} (hi : l[i]? = some a) : P a ↔ i < l.countP P := by
  induction l generalizing i with
  | nil => cases hi
  | cons b rest ih =>
    obtain ⟨hfirst, hrest⟩ := List.pairwise_cons.mp hl
    by_cases hb : P b
    · rw [List.countP_cons_of_pos hb]
      cases i with
      | zero =>
        cases hi
        exact iff_of_true hb (Nat.succ_pos _)
      | succ i => rw [ih hrest hi, Nat.add_lt_add_iff_right]
    · -- then `P` holds nowhere
      have hnone : ∀ c ∈ b :: rest, ¬ P c := by
        intro c hc
        rcases List.mem_cons.mp hc with rfl | hc
        · exact hb
        · exact fun h => hb (hfirst c hc h)
      rw [List.countP_eq_zero.mpr hnone]
      exact iff_of_false (hnone a (List.mem_of_getElem? hi)) (Nat.not_lt_zero i)

end SentinelStack.Lib
