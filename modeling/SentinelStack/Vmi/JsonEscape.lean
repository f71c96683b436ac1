import SentinelStack.Lib.Bytes
import SentinelStack.Lib.FlatJson
import SentinelStack.Vmi.AlertStream

/- `json_escape_string` of the bridge with the buffer it writes to. A store that is
   not inside `dst` has no result here, so that a run with a result has made none.

   Its branches test the room for one byte or for two. All of them come to the same
   (`jsonEscapeLoop_cons`): a byte of the source is written as it is escaped, if
   there is room for that and for a NUL behind it, and otherwise the loop ends. Main
   result: `json_escape_reads_back` — the buffer is written within its size and
   terminated, and a reader of the escapes takes from it a first part of the source,
   with `?` for control characters; all of it, if there is room for twice as much. -/
namespace SentinelStack.Vmi
open SentinelStack.Lib

/-! The code. -/

/-- The loop of `json_escape_string` at `w`, and the NUL it ends with. -/
def jsonEscapeIntoLoop (dstSize : Nat) (dst : List U8) (w : Nat) : CStr → Option (List U8)
  | [] => store dst w 0
  | c :: src =>
    if w + 1 ≥ dstSize then store dst w 0
    else if c = 0x22 ∨ c = 0x5C then
      if w + 2 ≥ dstSize then store dst w 0
      else do
        let dst ← store dst w 0x5C
        let dst ← store dst (w + 1) c
        jsonEscapeIntoLoop dstSize dst (w + 2) src
    else if c = newline then
      if w + 2 ≥ dstSize then store dst w 0
      else do
        let dst ← store dst w 0x5C
        let dst ← store dst (w + 1) 0x6E
        jsonEscapeIntoLoop dstSize dst (w + 2) src
    else if c < 0x20 then
      if w + 1 ≥ dstSize then store dst w 0
      else do
        let dst ← store dst w 0x3F
        jsonEscapeIntoLoop dstSize dst (w + 1) src
    else do
      let dst ← store dst w c
      jsonEscapeIntoLoop dstSize dst (w + 1) src

/-- `json_escape_string(src, dst, dst_size)`: what is in `dst` after it. -/
def jsonEscapeInto (src : CStr) (dst : List U8) (dstSize : Nat) : Option (List U8) :=
  if dstSize = 0 then some dst else jsonEscapeIntoLoop dstSize dst 0 src

/-! One byte. -/

/-- How a byte is written. -/
def escapeByte (c : U8) : CStr :=
  if c = 0x22 ∨ c = 0x5C then [0x5C, c] else if c = newline then [0x5C, 0x6E] else if c < 0x20 then [0x3F] else [c]

/-- What a reader takes from it. -/
def shownByte (c : U8) : U8 := if c < 0x20 ∧ c ≠ newline then 0x3F else c

theorem length_escapeByte (c : U8) : 1 ≤ (escapeByte c).length ∧ (escapeByte c).length ≤ 2 := by
  unfold escapeByte
  repeat' split
  all_goals exact ⟨by simp, by simp⟩

theorem nul_not_mem_escapeByte (c : U8) : 0 ∉ escapeByte c := by
  revert c
  decide +kernel

/-- The escape of a byte is read back, whatever follows it. -/
theorem jsonUnescape_escapeByte (c : U8) (rest : CStr) :
    jsonUnescape (escapeByte c ++ rest) = (jsonUnescape rest).map (shownByte c :: ·) := by
  unfold escapeByte
  split
  next hesc =>
    have hshown : unescapeByte c = some (shownByte c) := by
      rcases hesc with rfl | rfl
      · decide
      · decide
    exact jsonUnescape_escape hshown rest
  next hesc =>
    obtain ⟨hquote, hbackslash⟩ := not_or.mp hesc
    split
    next hnl =>
      rw [hnl]
      exact jsonUnescape_escape (by decide) rest
    next hnl =>
      split
      next hcontrol =>
        rw [shownByte, if_pos ⟨hcontrol, hnl⟩]
        exact jsonUnescape_plain (by decide) (by decide) rest
      next hcontrol =>
        rw [shownByte, if_neg (fun h => hcontrol h.1)]
        exact jsonUnescape_plain hbackslash (not_or.mpr ⟨hquote, hcontrol⟩) rest

/-! One turn of the loop. -/

section
variable {dstSize : Nat}

theorem jsonEscapeLoop_cons (w : Nat) (c : U8) (src : CStr) :
    jsonEscapeLoop dstSize w (c :: src) =
      if w + (escapeByte c).length < dstSize then escapeByte c ++ jsonEscapeLoop dstSize (w + (escapeByte c).length) src
      else [] := by
  rw [jsonEscapeLoop]
  unfold escapeByte
  repeat' split
  -- what is left of the splits is one branch on both sides, or two tests of the room that disagree
  all_goals first | rfl | (simp only [List.length_cons, List.length_nil] at *; omega)

theorem jsonEscapeIntoLoop_cons (dst : List U8) (w : Nat) (c : U8) (src : CStr) :
    jsonEscapeIntoLoop dstSize dst w (c :: src) =
      if w + (escapeByte c).length < dstSize then
        (storeFrom dst w (escapeByte c)).bind fun dst =>
          jsonEscapeIntoLoop dstSize dst (w + (escapeByte c).length) src
      else store dst w 0 := by
  rw [jsonEscapeIntoLoop]
  unfold escapeByte
  repeat' split
  all_goals first | (simp only [List.length_cons, List.length_nil] at *; omega) | simp [storeFrom, Option.bind_assoc]

/-! The whole loop. -/

/-- The string leaves room for its NUL. -/
theorem jsonEscapeLoop_fits {w : Nat} (hw : w < dstSize) (src : CStr) :
    w + (jsonEscapeLoop dstSize w src).length < dstSize := by
  induction src generalizing w with
  | nil => exact hw
  | cons c src ih =>
    rw [jsonEscapeLoop_cons]
    split
    next hroom =>
      have hrest := ih hroom
      rw [List.length_append]
      omega
    next => exact hw

theorem nul_not_mem_jsonEscapeLoop (dstSize w : Nat) (src : CStr) : 0 ∉ jsonEscapeLoop dstSize w src := by
  induction src generalizing w with
  | nil => exact List.not_mem_nil
  | cons c src ih =>
    rw [jsonEscapeLoop_cons]
    split
    · rw [List.mem_append, not_or]
      exact ⟨nul_not_mem_escapeByte c, ih _⟩
    · exact List.not_mem_nil

theorem overwrite_append (xs ys rest : List U8) :
    overwrite (xs ++ ys) rest = xs ++ overwrite ys (rest.drop xs.length) := by
  rw [overwrite, overwrite, List.length_append, List.drop_drop, List.append_assoc]

/-- All stores of the loop are inside, and they are the string and its NUL. -/
theorem jsonEscapeIntoLoop_eq (before : List U8) {rest : List U8} (hsize : before.length + rest.length = dstSize)
    (hrest : rest ≠ []) (src : CStr) :
    jsonEscapeIntoLoop dstSize (before ++ rest) before.length src =
      some (before ++ overwrite (jsonEscapeLoop dstSize before.length src ++ [0]) rest) := by
  have hend : ∀ before rest : List U8, rest ≠ [] →
      store (before ++ rest) before.length 0 = some (before ++ overwrite ([] ++ [0]) rest) := by
    intro before rest hne
    obtain ⟨old, rest', rfl⟩ := List.exists_cons_of_ne_nil hne
    exact store_append before old 0 rest'
  induction src generalizing before rest with
  | nil => exact hend before rest hrest
  | cons c src ih =>
    rw [jsonEscapeIntoLoop_cons, jsonEscapeLoop_cons]
    split
    next hroom =>
      have hlen : (before ++ escapeByte c).length = before.length + (escapeByte c).length := List.length_append
      have hleft : (rest.drop (escapeByte c).length).length = rest.length - (escapeByte c).length := List.length_drop
      have hnext := @ih (before ++ escapeByte c) (rest.drop (escapeByte c).length) (by omega)
        (List.ne_nil_of_length_pos (by omega))
      rw [hlen, List.append_assoc, List.append_assoc] at hnext
      rw [storeFrom_eq before (by omega), Option.bind_some, List.append_assoc, overwrite_append]
      exact hnext
    next => exact hend before rest hrest

/-- What a reader takes from the string. -/
theorem jsonUnescape_jsonEscapeLoop (dstSize w : Nat) (src : CStr) :
    ∃ k ≤ src.length, jsonUnescape (jsonEscapeLoop dstSize w src) = some ((src.take k).map shownByte) ∧
      (w + 2 * src.length < dstSize → k = src.length) := by
  induction src generalizing w with
  | nil => exact ⟨0, le_rfl, rfl, fun _ => rfl⟩
  | cons c src ih =>
    have hlen := (length_escapeByte c).2
    rw [jsonEscapeLoop_cons]
    split
    next hroom =>
      obtain ⟨k, hk, hread, hwhole⟩ := ih (w + (escapeByte c).length)
      refine ⟨k + 1, Nat.succ_le_succ hk, ?_, fun h => ?_⟩
      · rw [jsonUnescape_escapeByte, hread, Option.map_some, List.take_succ_cons, List.map_cons]
      · rw [List.length_cons] at h ⊢
        rw [hwhole (by omega)]
    next hfull =>
      refine ⟨0, Nat.zero_le _, rfl, fun h => ?_⟩
      rw [List.length_cons] at h
      omega

end

/-- **Escaped strings.** Of every string and for every buffer: the stores are inside the buffer, the
    buffer ends up terminated, and the escapes in it are whole and read back as a first part of the
    string; as all of it, when there is room for twice its length and the NUL. -/
theorem json_escape_reads_back (src : CStr) (dst : List U8) (hsize : 1 ≤ dst.length) :
    ∃ dst' k, jsonEscapeInto src dst dst.length = some dst' ∧ dst'.length = dst.length ∧ 0 ∈ dst' ∧
      cstrOf dst' = jsonEscapeString src dst.length ∧
      jsonUnescape (cstrOf dst') = some ((src.take k).map shownByte) ∧ k ≤ src.length ∧
      (2 * src.length + 1 ≤ dst.length → k = src.length) := by
  have hinto := jsonEscapeIntoLoop_eq [] (Nat.zero_add dst.length) (List.ne_nil_of_length_pos hsize) src
  have hfits := jsonEscapeLoop_fits (show 0 < dst.length from hsize) src
  obtain ⟨k, hk, hread, hwhole⟩ := jsonUnescape_jsonEscapeLoop dst.length 0 src
  rw [List.nil_append, List.nil_append, List.length_nil, overwrite, List.append_assoc] at hinto
  have hstring := cstrOf_append_nul (nul_not_mem_jsonEscapeLoop dst.length 0 src)
    (dst.drop (jsonEscapeLoop dst.length 0 src ++ [0]).length)
  refine ⟨_, k, (if_neg (by omega)).trans hinto, ?_, by simp, hstring, ?_, hk, fun h => hwhole (by omega)⟩
  · simp
    omega
  · exact (congrArg jsonUnescape hstring).trans hread

/-- A quote that has no room for both of its bytes is left out with what follows it. -/
theorem truncated_before_escape :
    jsonEscapeInto (ascii "ab\"c") (List.replicate 4 0xAA) 4 = some [0x61, 0x62, 0, 0xAA] ∧
      ∃ k, jsonUnescape [0x61, 0x62] = some (((ascii "ab\"c").take k).map shownByte) := by
  have hrun : jsonEscapeInto (ascii "ab\"c") (List.replicate 4 0xAA) 4 = some [0x61, 0x62, 0, 0xAA] := by
    decide +kernel
  obtain ⟨dst', k, hinto, -, -, -, hread, -⟩ :=
    json_escape_reads_back (ascii "ab\"c") (List.replicate 4 0xAA) (by decide)
  rw [List.length_replicate, hrun, Option.some.injEq] at hinto
  rw [← hinto] at hread
  exact ⟨hrun, k, hread⟩

/-- The reason of an alert is sent whole. -/
theorem reason_escaped_whole {alert : VmiAlert} (h : alert.reason.length < vmiAlertReasonMax) :
    jsonUnescape (jsonEscapeString alert.reason (2 * vmiAlertReasonMax + 8)) = some (alert.reason.map shownByte) := by
  obtain ⟨k, -, hread, hwhole⟩ := jsonUnescape_jsonEscapeLoop (2 * vmiAlertReasonMax + 8) 0 alert.reason
  rw [hwhole (by omega), List.take_length] at hread
  exact hread

end SentinelStack.Vmi
