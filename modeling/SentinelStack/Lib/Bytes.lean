import SentinelStack.Lib.CTypes

/- Buffers read from and written to a 64-bit address space. `BytesOf` says where
   the bytes of a buffer come from; `readBytes` is the reader that asks for one byte
   at a time, against which readers that work in chunks are compared: a chunk of it
   is a read of its own (`readBytes_add`). `poke` is a write; writes in chunks make
   up the write of the whole (`poke_append`). `store` is a write to an array, which
   has no result outside of it; bytes stored one after the other within the array
   replace as much of it (`storeFrom_eq`). `writeAt` is a write to a file: bytes apart
   from it stay (`slice_writeAt`). -/
namespace SentinelStack.Lib

/-- Every byte of the buffer is one that `P` allows at its address. -/
def BytesOf (P : U64 → U8 → Prop) (addr : U64) (buf : List U8) : Prop :=
  ∀ i b, buf[i]? = some b → P (addr + BitVec.ofNat 64 i) b

theorem bytesOf_nil (P : U64 → U8 → Prop) (addr : U64) : BytesOf P addr [] := by simp [BytesOf]

theorem BytesOf.append {P : U64 → U8 → Prop} {addr : U64} {xs ys : List U8} (hx : BytesOf P addr xs)
    (hy : BytesOf P (addr + BitVec.ofNat 64 xs.length) ys) : BytesOf P addr (xs ++ ys) := by
  intro i b hb
  by_cases hi : i < xs.length
  · rw [List.getElem?_append_left hi] at hb
    exact hx i b hb
  · rw [List.getElem?_append_right (by omega)] at hb
    have haddr : addr + BitVec.ofNat 64 i = addr + BitVec.ofNat 64 xs.length + BitVec.ofNat 64 (i - xs.length) := by
      rw [BitVec.add_assoc, ← BitVec.ofNat_add, show xs.length + (i - xs.length) = i by omega]
    rw [haddr]
    exact hy (i - xs.length) b hb

theorem BytesOf.drop {P : U64 → U8 → Prop} {addr : U64} {buf : List U8} (h : BytesOf P addr buf) (k : Nat) :
    BytesOf P (addr + BitVec.ofNat 64 k) (buf.drop k) := by
  intro i b hb
  rw [List.getElem?_drop] at hb
  rw [BitVec.add_assoc, ← BitVec.ofNat_add]
  exact h (k + i) b hb

theorem BytesOf.mono {P Q : U64 → U8 → Prop} {addr : U64} {buf : List U8} (h : BytesOf P addr buf)
    (hPQ : ∀ a b, P a b → Q a b) : BytesOf Q addr buf := fun i b hb => hPQ _ b (h i b hb)

/-! One byte at a time. -/

/-- `n` bytes from `addr` on, each asked for by itself; `none` when one of them is not there. -/
def readBytes (f : U64 → Option U8) (addr : U64) : Nat → Option (List U8)
  | 0 => some []
  | n + 1 => (f addr).bind fun b => (readBytes f (addr + 1) n).map (b :: ·)

theorem addr_succ (addr : U64) (i : Nat) : addr + 1 + BitVec.ofNat 64 i = addr + BitVec.ofNat 64 (i + 1) := by
  rw [BitVec.add_assoc, Nat.add_comm i 1, BitVec.ofNat_add]
  rfl

theorem readBytes_add (f : U64 → Option U8) (addr : U64) (m n : Nat) :
    readBytes f addr (m + n) =
      (readBytes f addr m).bind fun xs => (readBytes f (addr + BitVec.ofNat 64 m) n).map (xs ++ ·) := by
  induction m generalizing addr with
  | zero => simp [readBytes]
  | succ m ih =>
    rw [Nat.add_right_comm, readBytes, readBytes, ih, addr_succ]
    cases f addr with
    | none => rfl
    | some b =>
      simp only [Option.bind_some]
      cases readBytes f (addr + 1) m with
      | none => rfl
      | some xs => cases readBytes f (addr + BitVec.ofNat 64 (m + 1)) n <;> rfl

theorem readBytes_congr {f g : U64 → Option U8} {a b : U64} {n : Nat}
    (h : ∀ i < n, f (a + BitVec.ofNat 64 i) = g (b + BitVec.ofNat 64 i)) : readBytes f a n = readBytes g b n := by
  induction n generalizing a b with
  | zero => rfl
  | succ n ih =>
    have h0 : f a = g b := by simpa using h 0 (by omega)
    have hrest : readBytes f (a + 1) n = readBytes g (b + 1) n := by
      apply ih
      intro i hi
      rw [addr_succ, addr_succ]
      exact h (i + 1) (by omega)
    rw [readBytes, readBytes, h0, hrest]

/-- A byte that is not there fails the read. -/
theorem readBytes_eq_none {f : U64 → Option U8} {addr : U64} {n i : Nat} (hi : i < n)
    (h : f (addr + BitVec.ofNat 64 i) = none) : readBytes f addr n = none := by
  obtain ⟨k, rfl⟩ : ∃ k, n = i + (k + 1) := ⟨n - i - 1, by omega⟩
  rw [readBytes_add, readBytes, h]
  cases readBytes f addr i <;> rfl

theorem length_readBytes {f : U64 → Option U8} {addr : U64} {n : Nat} {buf : List U8}
    (h : readBytes f addr n = some buf) : buf.length = n := by
  induction n generalizing addr buf with
  | zero =>
    rw [readBytes, Option.some.injEq] at h
    rw [← h, List.length_nil]
  | succ n ih =>
    rw [readBytes, Option.bind_eq_some_iff] at h
    obtain ⟨b, -, h⟩ := h
    obtain ⟨bs, hbs, rfl⟩ := Option.map_eq_some_iff.mp h
    rw [List.length_cons, ih hbs]

/-! Writes. -/

theorem ofNat_toNat_add (a b : U64) : a + BitVec.ofNat 64 b.toNat = a + b := by
  rw [BitVec.ofNat_toNat, BitVec.setWidth_eq]

theorem toNat_add_ofNat {a : U64} {i : Nat} (h : a.toNat + i < 2 ^ 64) :
    (a + BitVec.ofNat 64 i).toNat = a.toNat + i := by
  rw [BitVec.toNat_add, BitVec.toNat_ofNat, Nat.add_mod_mod, Nat.mod_eq_of_lt h]

/-- An address that is none of the `n` from `b` on is at least `n` away. -/
theorem le_toNat_sub {a b : U64} {n : Nat} (h : ∀ k < n, a ≠ b + BitVec.ofNat 64 k) : n ≤ (a - b).toNat := by
  by_contra hlt
  apply h (a - b).toNat (Nat.not_le.mp hlt)
  rw [ofNat_toNat_add, BitVec.add_comm, BitVec.sub_add_cancel]

/-- The memory with `bytes` written from `addr` on. -/
def poke (memory : U64 → U8) (addr : U64) (bytes : List U8) : U64 → U8 := fun a =>
  (bytes[(a - addr).toNat]?).getD (memory a)

theorem poke_nil (memory : U64 → U8) (addr : U64) : poke memory addr [] = memory := rfl

theorem poke_congr {memory memory' : U64 → U8} {addr a : U64} {bytes : List U8} (h : memory a = memory' a) :
    poke memory addr bytes a = poke memory' addr bytes a := by
  rw [poke, poke, h]

/-- The bytes written are found where they were written. -/
theorem poke_at {memory : U64 → U8} {addr : U64} {bytes : List U8} {i : Nat} (hi : i < bytes.length)
    (hlen : bytes.length ≤ 2 ^ 64) : poke memory addr bytes (addr + BitVec.ofNat 64 i) = bytes[i] := by
  have hoffset : (addr + BitVec.ofNat 64 i - addr).toNat = i := by
    rw [BitVec.add_comm, BitVec.add_sub_cancel, BitVec.toNat_ofNat]
    omega
  rw [poke, hoffset, List.getElem?_eq_getElem hi, Option.getD_some]

/-- Elsewhere the memory is what it was. -/
theorem poke_elsewhere {memory : U64 → U8} {addr a : U64} {bytes : List U8} (h : bytes.length ≤ (a - addr).toNat) :
    poke memory addr bytes a = memory a := by
  rw [poke, List.getElem?_eq_none h, Option.getD_none]

/-- Two writes next to each other are one. -/
theorem poke_append (memory : U64 → U8) (addr : U64) {xs ys : List U8} (hlen : xs.length + ys.length ≤ 2 ^ 64) :
    poke (poke memory addr xs) (addr + BitVec.ofNat 64 xs.length) ys = poke memory addr (xs ++ ys) := by
  funext a
  have hlt := (a - addr).isLt
  have hsub : a - (addr + BitVec.ofNat 64 xs.length) = a - addr - BitVec.ofNat 64 xs.length := by
    bv_omega
  unfold poke
  rw [hsub]
  by_cases hfirst : (a - addr).toNat < xs.length
  · have hnext : (a - addr - BitVec.ofNat 64 xs.length).toNat = 2 ^ 64 + (a - addr).toNat - xs.length := by
      rw [BitVec.toNat_sub, BitVec.toNat_ofNat]
      omega
    rw [List.getElem?_append_left hfirst, List.getElem?_eq_none (by omega), Option.getD_none]
  · have hnext : (a - addr - BitVec.ofNat 64 xs.length).toNat = (a - addr).toNat - xs.length := by
      rw [BitVec.toNat_sub, BitVec.toNat_ofNat]
      omega
    rw [List.getElem?_append_right (by omega), hnext, List.getElem?_eq_none (l := xs) (by omega), Option.getD_none]

/-- A write, cut anywhere. -/
theorem poke_take_drop (memory : U64 → U8) (addr : U64) {bytes : List U8} {n : Nat} (hn : n ≤ bytes.length)
    (hlen : bytes.length ≤ 2 ^ 64) :
    poke (poke memory addr (bytes.take n)) (addr + BitVec.ofNat 64 n) (bytes.drop n) = poke memory addr bytes := by
  have hsum : (bytes.take n).length + (bytes.drop n).length ≤ 2 ^ 64 := by
    rw [← List.length_append, List.take_append_drop]
    exact hlen
  have hparts := poke_append memory addr hsum
  rwa [List.length_take_of_le hn, List.take_append_drop] at hparts

/-! Arrays. -/

/-- `buf[i] = b`, with no result when that is outside the array. -/
def store (buf : List U8) (i : Nat) (b : U8) : Option (List U8) := if i < buf.length then some (buf.set i b) else none

/-- One byte after the other, from index `i` on. -/
def storeFrom (buf : List U8) (i : Nat) : List U8 → Option (List U8)
  | [] => some buf
  | b :: bytes => (store buf i b).bind fun buf => storeFrom buf (i + 1) bytes

theorem store_append (before : List U8) (old b : U8) (rest : List U8) :
    store (before ++ old :: rest) before.length b = some (before ++ b :: rest) := by
  rw [store, if_pos (by simp), List.set_append_right _ _ le_rfl, Nat.sub_self, List.set_cons_zero]

theorem storeFrom_eq (before : List U8) {rest bytes : List U8} (h : bytes.length ≤ rest.length) :
    storeFrom (before ++ rest) before.length bytes = some (before ++ overwrite bytes rest) := by
  induction bytes generalizing before rest with
  | nil => rfl
  | cons b bytes ih =>
    cases rest with
    | nil => exact absurd h (by simp)
    | cons old rest =>
      have hnext := ih (before ++ [b]) (Nat.le_of_succ_le_succ h)
      rw [List.length_append, List.append_assoc, List.append_assoc] at hnext
      rw [storeFrom, store_append]
      exact hnext

/-! Files. -/

/-- The file after a write at an offset; a gap behind its end is filled with zeros. -/
def writeAt (offset : Nat) (new file : List U8) : List U8 :=
  (file ++ List.replicate (offset - file.length) 0).take offset ++ new ++ file.drop (offset + new.length)

theorem getElem?_writeAt {offset : Nat} {new file : List U8} (hin : offset + new.length ≤ file.length) (i : Nat) :
    (writeAt offset new file)[i]? = if i < offset ∨ offset + new.length ≤ i then file[i]? else new[i - offset]? := by
  have hlen : (file.take offset).length = offset := by
    rw [List.length_take]
    omega
  have hgap : (file ++ List.replicate (offset - file.length) 0).take offset = file.take offset :=
    List.take_append_of_le_length (by omega)
  rw [writeAt, hgap, List.append_assoc]
  by_cases hbefore : i < offset
  · rw [if_pos (Or.inl hbefore), List.getElem?_append_left (by omega), List.getElem?_take, if_pos hbefore]
  · rw [List.getElem?_append_right (by omega), hlen]
    by_cases hafter : offset + new.length ≤ i
    · rw [if_pos (Or.inr hafter), List.getElem?_append_right (by omega), List.getElem?_drop]
      congr 1
      omega
    · rw [if_neg (by omega), List.getElem?_append_left (by omega)]

theorem length_writeAt {offset : Nat} {new file : List U8} (hin : offset + new.length ≤ file.length) :
    (writeAt offset new file).length = file.length := by
  simp only [writeAt, List.length_append, List.length_take, List.length_drop, List.length_replicate]
  omega

/-- Bytes of the file that lie apart from the write. -/
theorem slice_writeAt {offset start n : Nat} {new file : List U8} (hin : offset + new.length ≤ file.length)
    (hapart : start + n ≤ offset ∨ offset + new.length ≤ start) :
    ((writeAt offset new file).drop start).take n = (file.drop start).take n := by
  apply List.ext_getElem?
  intro i
  rw [List.getElem?_take, List.getElem?_take]
  split
  next hi => rw [List.getElem?_drop, List.getElem?_drop, getElem?_writeAt hin, if_pos (by omega)]
  next => rfl

end SentinelStack.Lib
