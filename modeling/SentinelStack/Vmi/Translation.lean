import SentinelStack.Lib.Blocks
import SentinelStack.Vmi.Memory

/- Address translation: `vmi_gva_to_gpa` against the four-level paging of x86-64.

   The architecture is stated over numbers: a table is a range of entries in
   physical memory, an entry names a table or a frame by its bits 12 to 51, and a
   page is mapped at the level where the walk ends. An address is translated by
   its low 48 bits, which say all of a canonical one. Access rights, NX, PAT, PCID
   and reserved bits are not part of it.

   Main result: `gva_to_gpa_eq_translate` — the code returns an address if and
   only if the translation maps to it, and fails on every entry it cannot read. -/
namespace SentinelStack.Vmi
open SentinelStack.Lib

/-! The architecture. -/

/-- What a translation comes to. -/
inductive Translation where
  | mapped (gpa : Nat)
  | notPresent
  | unreadable
  deriving DecidableEq, Repr

/-- The number of address bits below the index of a level, which are the offset in a page
    mapped at that level. -/
def levelShift (level : Nat) : Nat := 12 + 9 * (level - 1)

/-- The entry maps a page: at level 1 always, at levels 2 and 3 when its PS bit is set. -/
def IsLeaf (level entry : Nat) : Prop := level = 1 ∨ (level = 2 ∨ level = 3) ∧ entry / 2 ^ 7 % 2 = 1

instance (level entry : Nat) : Decidable (IsLeaf level entry) := inferInstanceAs (Decidable (_ ∨ _))

/-- The bits of an entry from `k` up to the 52 bits of a physical address. -/
def frame (k entry : Nat) : Nat := entry / 2 ^ k % 2 ^ (52 - k) * 2 ^ k

/-- The four-level translation from a table on, with `entryAt` the entries that can be read. -/
def translateFrom (entryAt : Nat → Option Nat) (gva : Nat) : (level table : Nat) → Translation
  | 0, _ => .notPresent
  | level + 1, table =>
    match entryAt (table + 8 * (gva / 2 ^ levelShift (level + 1) % 2 ^ 9)) with
    | none => .unreadable
    | some entry =>
      if entry % 2 = 0 then .notPresent
      else if IsLeaf (level + 1) entry then
        .mapped (frame (levelShift (level + 1)) entry + gva % 2 ^ levelShift (level + 1))
      else translateFrom entryAt gva level (frame 12 entry)

def translate (entryAt : Nat → Option Nat) (cr3 gva : Nat) : Translation := translateFrom entryAt gva 4 (frame 12 cr3)

/-! The walk of the code. -/

/-- The table entries of the guest, as far as they can be read. -/
def guestEntry (host : Host) (s : VmiSession) (addr : Nat) : Option Nat :=
  (readEntry host s (BitVec.ofNat 64 addr)).map BitVec.toNat

theorem toNat_ptAddrMask (entry : U64) : (entry &&& ptAddrMask).toNat = frame 12 entry.toNat :=
  toNat_and_field 12 40 (by decide) entry

theorem frame_lt (k entry : Nat) (hk : k ≤ 52) : frame k entry < 2 ^ 52 := by
  have hlt := Nat.mod_lt (entry / 2 ^ k) (Nat.two_pow_pos (52 - k))
  have hmul := Nat.mul_lt_mul_of_pos_right hlt (Nat.two_pow_pos k)
  rwa [← Nat.pow_add, Nat.sub_add_cancel hk] at hmul

theorem toNat_index (gva : U64) (k : Nat) : ((gva >>> k) &&& 0x1FF).toNat = gva.toNat / 2 ^ k % 2 ^ 9 := by
  have hfield := toNat_and_field 0 9 (by decide) (gva >>> k)
  rw [BitVec.toNat_ushiftRight, Nat.shiftRight_eq_div_pow] at hfield
  simpa using hfield

theorem present_iff (entry : U64) : entry &&& ptPresent ≠ 0 ↔ ¬ entry.toNat % 2 = 0 := by
  have h := and_bit_ne_zero_iff 0 (by decide) entry
  rw [Nat.pow_zero, Nat.div_one] at h
  rw [show ptPresent = BitVec.ofNat 64 1 by decide, h]
  omega

theorem pagesize_iff (entry : U64) : entry &&& ptPagesize ≠ 0 ↔ entry.toNat / 2 ^ 7 % 2 = 1 :=
  and_bit_ne_zero_iff 7 (by decide) entry

theorem toNat_frameMask (size : PageSize) (entry : U64) :
    (entry &&& size.frameMask).toNat = frame size.shift entry.toNat := by
  cases size with
  | page1G => exact toNat_and_field 30 22 (by decide) entry
  | page2M => exact toNat_and_field 21 31 (by decide) entry
  | page4K => exact toNat_ptAddrMask entry

/-- The address of an entry does not wrap. -/
theorem entry_addr (table gva : U64) (k : Nat) :
    (table &&& ptAddrMask) + ((gva >>> k) &&& 0x1FF) * ptEntrySize =
      BitVec.ofNat 64 (frame 12 table.toNat + 8 * (gva.toNat / 2 ^ k % 2 ^ 9)) := by
  have hlt := frame_lt 12 table.toNat (by decide)
  have hindex := Nat.mod_lt (gva.toNat / 2 ^ k) (Nat.two_pow_pos 9)
  apply BitVec.eq_of_toNat_eq
  rw [BitVec.toNat_add, BitVec.toNat_mul, toNat_ptAddrMask, toNat_index, BitVec.toNat_ofNat]
  show (_ + _ * 8 % 2 ^ 64) % 2 ^ 64 = _
  omega

/-- The code returns what the translation maps to, and nothing if it does not. -/
def Agrees (o : Option U64) (t : Translation) : Prop := ∀ gpa, o = some gpa ↔ t = .mapped gpa.toNat

/-- One level: where the walks agree behind every entry, they agree at the table. -/
theorem agrees_level {host : Host} {s : VmiSession} {table gva : U64} {k : Nat} {next : U64 → Option U64}
    {rest : Nat → Translation} (h : ∀ entry, Agrees (next entry) (rest entry.toNat)) :
    Agrees ((presentEntry host s (table &&& ptAddrMask) ((gva >>> k) &&& 0x1FF)).bind next)
      (match guestEntry host s (frame 12 table.toNat + 8 * (gva.toNat / 2 ^ k % 2 ^ 9)) with
        | none => .unreadable
        | some entry => if entry % 2 = 0 then .notPresent else rest entry) := by
  intro gpa
  rw [presentEntry, entry_addr, guestEntry]
  cases readEntry host s (BitVec.ofNat 64 (frame 12 table.toNat + 8 * (gva.toNat / 2 ^ k % 2 ^ 9))) with
  | none => simp
  | some entry =>
    rw [Option.filter_some]
    by_cases hpresent : entry.toNat % 2 = 0
    · rw [if_neg (by rw [decide_eq_true_eq, present_iff]; exact not_not_intro hpresent)]
      simp [hpresent]
    · rw [if_pos (decide_eq_true ((present_iff entry).mpr hpresent))]
      simpa [hpresent] using h entry gpa

theorem agrees_leaf (size : PageSize) (entry gva : U64) :
    Agrees (some ((entry &&& size.frameMask) ||| (gva &&& size.offsetMask)))
      (.mapped (frame size.shift entry.toNat + gva.toNat % 2 ^ size.shift)) := by
  intro gpa
  rw [Option.some.injEq, Translation.mapped.injEq, ← toNat_frameMask, ← PageSize.toNat_frame_or_offset,
    BitVec.toNat_inj]

theorem agrees_ite {p q : Prop} [Decidable p] [Decidable q] (hpq : p ↔ q) {a b : Option U64} {x y : Translation}
    (hp : Agrees a x) (hn : Agrees b y) : Agrees (if p then a else b) (if q then x else y) := by
  by_cases h : p
  · rw [if_pos h, if_pos (hpq.mp h)]
    exact hp
  · rw [if_neg h, if_neg (mt hpq.mpr h)]
    exact hn

/-- **The walk is the architecture's**, for every address and every content of the tables. -/
theorem gva_to_gpa_eq_translate (host : Host) (s : VmiSession) (cr3 gva : U64) :
    (∀ gpa, vmiGvaToGpa host s cr3 gva = some gpa ↔
        translate (guestEntry host s) cr3.toNat gva.toNat = .mapped gpa.toNat) ∧
      (translate (guestEntry host s) cr3.toNat gva.toNat = .unreadable → vmiGvaToGpa host s cr3 gva = none) := by
  have hagrees : Agrees (vmiGvaToGpa host s cr3 gva) (translate (guestEntry host s) cr3.toNat gva.toNat) := by
    simp only [vmiGvaToGpa, walk, Option.bind_eq_bind, Option.map_bind, translate, translateFrom]
    apply agrees_level
    intro pml4e
    have hpml4 : ¬ IsLeaf 4 pml4e.toNat := by simp [IsLeaf]
    rw [if_neg hpml4, Function.comp_apply, Option.map_bind]
    apply agrees_level
    intro pdpte
    rw [Function.comp_apply, apply_ite (Option.map _)]
    apply agrees_ite (by rw [pagesize_iff]; simp [IsLeaf]) (agrees_leaf .page1G pdpte gva)
    rw [Option.map_bind]
    apply agrees_level
    intro pde
    rw [Function.comp_apply, apply_ite (Option.map _)]
    apply agrees_ite (by rw [pagesize_iff]; simp [IsLeaf]) (agrees_leaf .page2M pde gva)
    rw [Option.map_bind]
    apply agrees_level
    intro pte
    have hpt : IsLeaf 1 pte.toNat := Or.inl rfl
    rw [if_pos hpt]
    exact agrees_leaf .page4K pte gva
  refine ⟨hagrees, fun hunreadable => ?_⟩
  cases hgpa : vmiGvaToGpa host s cr3 gva with
  | none => rfl
  | some gpa => exact absurd (hunreadable ▸ (hagrees gpa).mp hgpa) (by simp)

end SentinelStack.Vmi
