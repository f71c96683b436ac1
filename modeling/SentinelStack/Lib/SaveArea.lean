import SentinelStack.Lib.Bytes
import Mathlib.Logic.Function.Basic

/- Registers saved to memory and taken back.

   Memory is bytes, registers are 64-bit words stored low byte first. `Saved` says
   that the slots of an area, at offsets from a base, hold the values of registers;
   stores to slots that do not overlap establish it (`saved_saveAll`), a change
   outside the area keeps it (`Saved.congr`), and loading the slots gives the values
   back (`restoreAll_of_saved`). A series of pushes is such a series of stores, and
   the pops in the opposite order load them (`pushes_eq`, `pops_eq`). Addresses
   wrap; nothing is assumed about where the base is. -/
namespace SentinelStack.Lib

abbrev ByteMem := U64 → U8

/-! Words. -/

def load64 (mem : ByteMem) (a : U64) : U64 :=
  BitVec.ofNat 64 ((List.range 8).map fun k => (mem (a + BitVec.ofNat 64 k)).toNat * 256 ^ k).sum

def store64 (mem : ByteMem) (a v : U64) : ByteMem := fun x =>
  if (x - a).toNat < 8 then BitVec.ofNat 8 (v.toNat / 256 ^ (x - a).toNat) else mem x

theorem load64_congr {mem mem' : ByteMem} {a : U64}
    (h : ∀ k < 8, mem' (a + BitVec.ofNat 64 k) = mem (a + BitVec.ofNat 64 k)) : load64 mem' a = load64 mem a := by
  unfold load64
  congr 2
  refine List.map_congr_left fun k hk => ?_
  rw [h k (List.mem_range.mp hk)]

/-- The low bytes of a number, put together again. -/
theorem sum_bytes (n m : Nat) : ((List.range m).map fun k => n / 256 ^ k % 256 * 256 ^ k).sum = n % 256 ^ m := by
  induction m with
  | zero => simp [Nat.mod_one]
  | succ m ih =>
    rw [List.range_succ, List.map_append, List.sum_append, ih, List.map_singleton, List.sum_singleton,
      Nat.mod_pow_succ, Nat.mul_comm]

theorem load64_store64_self (mem : ByteMem) (a v : U64) : load64 (store64 mem a v) a = v := by
  have hbyte : ∀ k < 8, (store64 mem a v (a + BitVec.ofNat 64 k)).toNat = v.toNat / 256 ^ k % 256 := by
    intro k hk
    have hoff : (a + BitVec.ofNat 64 k - a).toNat = k := by
      rw [add_sub_cancel_left, BitVec.toNat_ofNat, Nat.mod_eq_of_lt (by omega)]
    rw [store64, hoff, if_pos hk, BitVec.toNat_ofNat]
  have hsum : (List.range 8).map (fun k => (store64 mem a v (a + BitVec.ofNat 64 k)).toNat * 256 ^ k) =
      (List.range 8).map fun k => v.toNat / 256 ^ k % 256 * 256 ^ k :=
    List.map_congr_left fun k hk => by rw [hbyte k (List.mem_range.mp hk)]
  rw [load64, hsum, sum_bytes]
  show BitVec.ofNat 64 (v.toNat % 2 ^ 64) = v
  rw [Nat.mod_eq_of_lt v.isLt, BitVec.ofNat_toNat, BitVec.setWidth_eq]

/-- The two words have no byte in common. -/
def Apart (a b : U64) : Prop := 8 ≤ (b - a).toNat ∧ 8 ≤ (a - b).toNat

theorem load64_store64_apart (mem : ByteMem) {a b : U64} (v : U64) (h : Apart a b) :
    load64 (store64 mem a v) b = load64 mem b := by
  apply load64_congr
  intro k hk
  have hneg : (a - b).toNat = (2 ^ 64 - (b - a).toNat) % 2 ^ 64 := by
    rw [← neg_sub, BitVec.toNat_neg]
  have hlt := (b - a).isLt
  obtain ⟨hba, hab⟩ := h
  have hoff : (b + BitVec.ofNat 64 k - a).toNat = (b - a).toNat + k := by
    rw [add_sub_right_comm, toNat_add_ofNat (by omega)]
  rw [store64, hoff, if_neg (by omega)]

/-- Slots of one area. -/
theorem apart_slots (base : U64) {m n : Nat} (hm : m < 2 ^ 63) (hn : n < 2 ^ 63) (h : m + 8 ≤ n ∨ n + 8 ≤ m) :
    Apart (base + BitVec.ofNat 64 m) (base + BitVec.ofNat 64 n) := by
  have hdiff : ∀ i j : Nat, i < 2 ^ 63 → j < 2 ^ 63 → i + 8 ≤ j ∨ j + 8 ≤ i →
      8 ≤ (base + BitVec.ofNat 64 j - (base + BitVec.ofNat 64 i)).toNat := by
    intro i j hi hj hij
    rw [add_sub_add_left_eq_sub, BitVec.toNat_sub, BitVec.toNat_ofNat, BitVec.toNat_ofNat]
    omega
  exact ⟨hdiff m n hm hn h, hdiff n m hn hm h.symm⟩

theorem store64_outside (mem : ByteMem) {a x : U64} (v : U64) (h : 8 ≤ (x - a).toNat) : store64 mem a v x = mem x :=
  if_neg (by omega)

/-! Areas. -/

section area

variable {R : Type*}

/-- The slots of registers, each at its offset. -/
abbrev Slots (R : Type*) := List (R × Nat)

/-- The slots do not overlap and lie in the first `size` bytes. -/
structure Spaced (slots : Slots R) (size : Nat) : Prop where
  apart : slots.Pairwise fun s t => s.2 + 8 ≤ t.2 ∨ t.2 + 8 ≤ s.2
  inside : ∀ s ∈ slots, s.2 + 8 ≤ size
  fits : size ≤ 2 ^ 63

/-- The slots hold the values of the registers. -/
def Saved (base : U64) (slots : Slots R) (regs : R → U64) (mem : ByteMem) : Prop :=
  ∀ s ∈ slots, load64 mem (base + BitVec.ofNat 64 s.2) = regs s.1

def saveAll (base : U64) (slots : Slots R) (regs : R → U64) (mem : ByteMem) : ByteMem :=
  slots.foldl (fun m s => store64 m (base + BitVec.ofNat 64 s.2) (regs s.1)) mem

def restoreAll [DecidableEq R] (base : U64) (slots : Slots R) (mem : ByteMem) (regs : R → U64) : R → U64 :=
  slots.foldl (fun rs s => Function.update rs s.1 (load64 mem (base + BitVec.ofNat 64 s.2))) regs

theorem saveAll_append (base : U64) (slots slots' : Slots R) (regs : R → U64) (mem : ByteMem) :
    saveAll base (slots ++ slots') regs mem = saveAll base slots' regs (saveAll base slots regs mem) :=
  List.foldl_append ..

theorem restoreAll_append [DecidableEq R] (base : U64) (slots slots' : Slots R) (mem : ByteMem) (regs : R → U64) :
    restoreAll base (slots ++ slots') mem regs = restoreAll base slots' mem (restoreAll base slots mem regs) :=
  List.foldl_append ..

variable {base : U64} {slots : Slots R} {size : Nat} {regs : R → U64} {mem mem' : ByteMem}

/-- A slot that none of the stores overlaps keeps its word. -/
theorem load64_saveAll {n : Nat} (hn : n < 2 ^ 63) (hfits : ∀ s ∈ slots, s.2 < 2 ^ 63)
    (h : ∀ s ∈ slots, s.2 + 8 ≤ n ∨ n + 8 ≤ s.2) :
    load64 (saveAll base slots regs mem) (base + BitVec.ofNat 64 n) = load64 mem (base + BitVec.ofNat 64 n) := by
  induction slots generalizing mem with
  | nil => rfl
  | cons s slots ih =>
    obtain ⟨hs, hslots⟩ := List.forall_mem_cons.mp h
    obtain ⟨hfit, hfits⟩ := List.forall_mem_cons.mp hfits
    show load64 (saveAll base slots regs _) _ = _
    rw [ih hfits hslots, load64_store64_apart _ _ (apart_slots base hfit hn hs)]

/-- **Saving.** -/
theorem saved_saveAll (h : Spaced slots size) : Saved base slots regs (saveAll base slots regs mem) := by
  induction slots generalizing mem with
  | nil => exact List.forall_mem_nil _
  | cons s slots ih =>
    obtain ⟨happart, hrest⟩ := List.pairwise_cons.mp h.apart
    obtain ⟨hin, hinside⟩ := List.forall_mem_cons.mp h.inside
    have hfits := h.fits
    refine List.forall_mem_cons.mpr ⟨?_, ih ⟨hrest, hinside, hfits⟩⟩
    show load64 (saveAll base slots regs _) _ = _
    rw [load64_saveAll (by omega) (fun t ht => by have := hinside t ht; omega) fun t ht => (happart t ht).symm,
      load64_store64_self]

/-- Nothing outside of the area is written. -/
theorem saveAll_outside (hinside : ∀ s ∈ slots, s.2 + 8 ≤ size) {x : U64} (hx : size ≤ (x - base).toNat) :
    saveAll base slots regs mem x = mem x := by
  induction slots generalizing mem with
  | nil => rfl
  | cons s slots ih =>
    obtain ⟨hin, hinside⟩ := List.forall_mem_cons.mp hinside
    have hoff : x - (base + BitVec.ofNat 64 s.2) = x - base - BitVec.ofNat 64 s.2 := sub_add_eq_sub_sub ..
    have hfar : 8 ≤ (x - (base + BitVec.ofNat 64 s.2)).toNat := by
      have hlt := (x - base).isLt
      rw [hoff, BitVec.toNat_sub, BitVec.toNat_ofNat]
      omega
    show saveAll base slots regs _ x = _
    rw [ih hinside]
    exact store64_outside _ _ hfar

/-- **Keeping.** -/
theorem Saved.congr (h : Saved base slots regs mem) (hspaced : Spaced slots size)
    (heq : ∀ i < size, mem' (base + BitVec.ofNat 64 i) = mem (base + BitVec.ofNat 64 i)) :
    Saved base slots regs mem' := by
  intro s hs
  have hin := hspaced.inside s hs
  rw [← h s hs]
  apply load64_congr
  intro k hk
  rw [BitVec.add_assoc, ← BitVec.ofNat_add]
  exact heq (s.2 + k) (by omega)

/-- **Restoring.** -/
theorem restoreAll_of_saved [DecidableEq R] (h : Saved base slots regs mem) (regs' : R → U64) (r : R) :
    restoreAll base slots mem regs' r = if r ∈ slots.map Prod.fst then regs r else regs' r := by
  induction slots generalizing regs' with
  | nil => rfl
  | cons s slots ih =>
    obtain ⟨hs, hslots⟩ := List.forall_mem_cons.mp h
    show restoreAll base slots mem (Function.update regs' s.1 _) r = _
    rw [ih hslots, List.map_cons, hs]
    by_cases hr : r = s.1
    · rw [hr, Function.update_self, if_pos (List.mem_cons_self ..), ite_self]
    · rw [Function.update_of_ne hr]
      exact (if_congr (List.mem_cons.trans (or_iff_right hr)) rfl rfl).symm

end area

/-! Pushes and pops. -/

section stack

variable {R : Type*}

structure StackMachine (R : Type*) where
  regs : R → U64
  sp : U64
  mem : ByteMem

namespace StackMachine

def push (s : StackMachine R) (r : R) : StackMachine R :=
  { s with sp := s.sp - 8, mem := store64 s.mem (s.sp - 8) (s.regs r) }

def pop [DecidableEq R] (s : StackMachine R) (r : R) : StackMachine R :=
  { s with regs := Function.update s.regs r (load64 s.mem s.sp), sp := s.sp + 8 }

end StackMachine

/-- The slots of registers pushed in order, from the stack pointer after the last one. -/
def pushSlots : List R → Slots R
  | [] => []
  | r :: rs => (r, 8 * rs.length) :: pushSlots rs

theorem pushSlots_inside (rs : List R) : ∀ s ∈ pushSlots rs, s.2 + 8 ≤ 8 * rs.length := by
  induction rs with
  | nil => exact List.forall_mem_nil _
  | cons r rs ih =>
    refine List.forall_mem_cons.mpr ⟨?_, fun s hs => ?_⟩
    · rw [List.length_cons]
      omega
    · have hle := ih s hs
      rw [List.length_cons]
      omega

theorem spaced_pushSlots {rs : List R} (h : 8 * rs.length ≤ 2 ^ 63) : Spaced (pushSlots rs) (8 * rs.length) where
  apart := by
    clear h
    induction rs with
    | nil => exact List.Pairwise.nil
    | cons r rs ih => exact List.pairwise_cons.mpr ⟨fun s hs => Or.inr (pushSlots_inside rs s hs), ih⟩
  inside := pushSlots_inside rs
  fits := h

theorem map_fst_pushSlots (rs : List R) : (pushSlots rs).map Prod.fst = rs := by
  induction rs with
  | nil => rfl
  | cons r rs ih => rw [pushSlots, List.map_cons, ih]

/-- **Pushing is saving** below the stack pointer. -/
theorem pushes_eq (rs : List R) (s : StackMachine R) :
    rs.foldl StackMachine.push s =
      ⟨s.regs, s.sp - BitVec.ofNat 64 (8 * rs.length),
        saveAll (s.sp - BitVec.ofNat 64 (8 * rs.length)) (pushSlots rs) s.regs s.mem⟩ := by
  induction rs generalizing s with
  | nil => simp [pushSlots, saveAll]
  | cons r rs ih =>
    have hbase : s.sp - BitVec.ofNat 64 (8 * (r :: rs).length) = s.sp - 8 - BitVec.ofNat 64 (8 * rs.length) := by
      rw [← sub_add_eq_sub_sub, List.length_cons, Nat.mul_add, Nat.add_comm, BitVec.ofNat_add]
      rfl
    rw [List.foldl_cons, ih, hbase]
    show (⟨s.regs, _, _⟩ : StackMachine R) = ⟨s.regs, _, saveAll _ (pushSlots rs) s.regs (store64 s.mem _ (s.regs r))⟩
    rw [BitVec.sub_add_cancel]
    rfl

/-- **Popping is restoring**, in the opposite order. -/
theorem pops_eq [DecidableEq R] (rs : List R) (s : StackMachine R) :
    rs.reverse.foldl StackMachine.pop s =
      ⟨restoreAll s.sp (pushSlots rs).reverse s.mem s.regs, s.sp + BitVec.ofNat 64 (8 * rs.length), s.mem⟩ := by
  induction rs with
  | nil => simp [pushSlots, restoreAll]
  | cons r rs ih =>
    rw [List.reverse_cons, List.foldl_append, ih, pushSlots, List.reverse_cons, restoreAll_append, List.length_cons,
      Nat.mul_add, BitVec.ofNat_add, ← BitVec.add_assoc]
    rfl

end stack

end SentinelStack.Lib
