import SentinelStack.Lib.CText

/- Flat JSON objects as `printf` writes them, and `strstr` as a way to find a
   member: the first place where the pattern of a key stands is at the member with
   that key (`strstr_objectText_of_mem`), whatever the values are, as long as no
   key or value has a quote in it. `jsonUnescape` is how a reader takes the
   characters of a string that has escapes in it. -/
namespace SentinelStack.Lib

/-- `strstr(s, needle)`: the string from the first place on where the needle stands. -/
def strstr (needle : CStr) : CStr → Option CStr
  | [] => if needle = [] then some [] else none
  | c :: rest => if needle <+: c :: rest then some (c :: rest) else strstr needle rest

def quote : U8 := 0x22
def colon : U8 := 0x3A
def comma : U8 := 0x2C
def openBrace : U8 := 0x7B
def closeBrace : U8 := 0x7D

/-- A value as it is written: a string between quotes, or anything else. -/
inductive JsonValue where
  | str (s : CStr)
  | num (text : CStr)

/-- The characters of a value, without the quotes. -/
def JsonValue.inner : JsonValue → CStr
  | str s => s
  | num text => text

def JsonValue.text : JsonValue → CStr
  | str s => quote :: (s ++ [quote])
  | num text => text

structure Member where
  key : CStr
  value : JsonValue

namespace Member

def text (m : Member) : CStr := quote :: (m.key ++ quote :: colon :: m.value.text)

/-- Neither the key nor the value has a quote in it. -/
def Clean (m : Member) : Prop := quote ∉ m.key ∧ quote ∉ m.value.inner

end Member

/-- The members from the second on, each after a comma, and the end of the object. -/
def membersText (trailer : CStr) : List Member → CStr
  | [] => closeBrace :: trailer
  | m :: ms => comma :: (m.text ++ membersText trailer ms)

/-- An object with at least one member. -/
def objectText (trailer : CStr) (m : Member) (ms : List Member) : CStr :=
  openBrace :: (m.text ++ membersText trailer ms)

/-- `"key":`, and what the value has to begin with. -/
def keyPattern (key start : CStr) : CStr := quote :: (key ++ quote :: colon :: start)

/-- A key of none of the characters that give an object its shape. -/
def Plain (key : CStr) : Prop := ∀ c ∈ key, c ≠ quote ∧ c ≠ colon ∧ c ≠ comma ∧ c ≠ closeBrace

instance (key : CStr) : Decidable (Plain key) := inferInstanceAs (Decidable (∀ c ∈ key, _))

/-! Searching. -/

theorem strstr_step {needle : CStr} {c : U8} {rest : CStr} (h : ¬ needle <+: c :: rest) :
    strstr needle (c :: rest) = strstr needle rest := if_neg h

theorem strstr_here {needle : CStr} {c : U8} {rest : CStr} (h : needle <+: c :: rest) :
    strstr needle (c :: rest) = some (c :: rest) := if_pos h

/-- A text without the first character of the needle is passed over. -/
theorem strstr_append_of_not_mem {q : U8} {needle text : CStr} (h : q ∉ text) (rest : CStr) :
    strstr (q :: needle) (text ++ rest) = strstr (q :: needle) rest := by
  induction text with
  | nil => rfl
  | cons c text ih =>
    obtain ⟨hc, htext⟩ := not_or.mp (mt List.mem_cons.mpr h)
    rw [List.cons_append, strstr_step, ih htext]
    intro hpre
    exact hc (List.cons_prefix_cons.mp hpre).1

/-- Two texts up to their first quote, one at the front of the other. -/
theorem prefix_quote_iff {a b : CStr} (ha : quote ∉ a) (hb : quote ∉ b) (x y : CStr) :
    a ++ quote :: x <+: b ++ quote :: y ↔ a = b ∧ x <+: y := by
  induction a generalizing b with
  | nil =>
    cases b with
    | nil => simp
    | cons c b =>
      refine ⟨fun h => ?_, fun h => absurd h.1.symm (List.cons_ne_nil _ _)⟩
      exact absurd (List.mem_cons.mpr (Or.inl (List.cons_prefix_cons.mp h).1)) hb
  | cons c a ih =>
    cases b with
    | nil =>
      refine ⟨fun h => ?_, fun h => absurd h.1 (List.cons_ne_nil _ _)⟩
      exact absurd (List.mem_cons.mpr (Or.inl (List.cons_prefix_cons.mp h).1.symm)) ha
    | cons d b =>
      rw [List.cons_append, List.cons_append, List.cons_prefix_cons,
        ih (List.not_mem_of_not_mem_cons ha) (List.not_mem_of_not_mem_cons hb), List.cons.injEq, and_assoc]

section
variable {key start : CStr} (hkey : Plain key)
include hkey

theorem Plain.quote_not_mem : quote ∉ key := fun h => (hkey quote h).1 rfl

/-- After a quote that ends something, the pattern does not begin. -/
theorem not_keyPattern_of_closing {c : U8} (hc : c = colon ∨ c = comma ∨ c = closeBrace) (rest : CStr) :
    ¬ keyPattern key start <+: quote :: c :: rest := by
  intro hpre
  have htail := (List.cons_prefix_cons.mp hpre).2
  cases key with
  | nil =>
    have heq : quote = c := (List.cons_prefix_cons.mp htail).1
    rw [← heq] at hc
    exact absurd hc (by decide)
  | cons k key =>
    have heq : k = c := (List.cons_prefix_cons.mp htail).1
    obtain ⟨-, hcolon, hcomma, hclose⟩ := hkey k List.mem_cons_self
    rw [← heq] at hc
    rcases hc with h | h | h
    · exact hcolon h
    · exact hcomma h
    · exact hclose h

/-- The search passes over a value. -/
theorem strstr_value {v : JsonValue} (hv : quote ∉ v.inner) {c : U8} (hc : c = comma ∨ c = closeBrace) (rest : CStr) :
    strstr (keyPattern key start) (v.text ++ c :: rest) = strstr (keyPattern key start) (c :: rest) := by
  cases v with
  | num text => exact strstr_append_of_not_mem hv _
  | str s =>
    show strstr _ (quote :: (s ++ [quote]) ++ c :: rest) = _
    rw [List.cons_append, List.append_assoc, List.singleton_append, strstr_step]
    · rw [show strstr (keyPattern key start) (s ++ quote :: c :: rest) = strstr (keyPattern key start) (quote :: c :: rest)
        from strstr_append_of_not_mem hv _]
      exact strstr_step (not_keyPattern_of_closing hkey (Or.inr hc) rest)
    · -- the value itself could be the key, but no colon follows it
      intro hpre
      have htail := (List.cons_prefix_cons.mp hpre).2
      obtain ⟨-, hafter⟩ := (prefix_quote_iff hkey.quote_not_mem hv _ _).mp htail
      have heq : colon = c := (List.cons_prefix_cons.mp hafter).1
      rw [← heq] at hc
      exact absurd hc (by decide)

/-- The search passes over a member with another key. -/
theorem strstr_member {m : Member} (hm : m.Clean) (hne : m.key ≠ key) {c : U8} (hc : c = comma ∨ c = closeBrace)
    (rest : CStr) :
    strstr (keyPattern key start) (m.text ++ c :: rest) = strstr (keyPattern key start) (c :: rest) := by
  have htext : m.text ++ c :: rest = quote :: (m.key ++ quote :: colon :: (m.value.text ++ c :: rest)) := by
    simp [Member.text]
  have hfirst : ¬ keyPattern key start <+: quote :: (m.key ++ quote :: colon :: (m.value.text ++ c :: rest)) := by
    intro hpre
    have htail := (List.cons_prefix_cons.mp hpre).2
    exact hne ((prefix_quote_iff hkey.quote_not_mem hm.1 _ _).mp htail).1.symm
  have hcolon : ¬ keyPattern key start <+: colon :: (m.value.text ++ c :: rest) := by
    intro hpre
    exact absurd (List.cons_prefix_cons.mp hpre).1 (by decide)
  calc strstr (keyPattern key start) (m.text ++ c :: rest)
      = strstr (keyPattern key start) (m.key ++ quote :: colon :: (m.value.text ++ c :: rest)) := by
        rw [htext, strstr_step hfirst]
    _ = strstr (keyPattern key start) (quote :: colon :: (m.value.text ++ c :: rest)) :=
        strstr_append_of_not_mem hm.1 _
    _ = strstr (keyPattern key start) (m.value.text ++ c :: rest) := by
        rw [strstr_step (not_keyPattern_of_closing hkey (Or.inl rfl) _), strstr_step hcolon]
    _ = strstr (keyPattern key start) (c :: rest) := strstr_value hkey hm.2 hc rest

end

/-- What follows a member begins with a comma or ends the object. -/
theorem membersText_head (trailer : CStr) (ms : List Member) :
    ∃ c rest, membersText trailer ms = c :: rest ∧ (c = comma ∨ c = closeBrace) := by
  cases ms with
  | nil => exact ⟨closeBrace, trailer, rfl, Or.inr rfl⟩
  | cons m ms => exact ⟨comma, _, rfl, Or.inl rfl⟩

section
variable {key start trailer : CStr} (hkey : Plain key)
include hkey

theorem strstr_member_append {m : Member} (hm : m.Clean) (hne : m.key ≠ key) (ms : List Member) :
    strstr (keyPattern key start) (m.text ++ membersText trailer ms) =
      strstr (keyPattern key start) (membersText trailer ms) := by
  obtain ⟨c, rest, heq, hc⟩ := membersText_head trailer ms
  rw [heq]
  exact strstr_member hkey hm hne hc rest

/-- The search ends at the first member with the key, where its value begins as asked. -/
theorem strstr_membersText_of_mem {pre : List Member} {m : Member} {post : List Member}
    (hpre : ∀ m' ∈ pre, m'.Clean ∧ m'.key ≠ key) (hm : m.key = key)
    (hstart : start <+: m.value.text ++ membersText trailer post) :
    strstr (keyPattern key start) (membersText trailer (pre ++ m :: post)) = some (m.text ++ membersText trailer post) := by
  have hcomma : ∀ rest, strstr (keyPattern key start) (comma :: rest) = strstr (keyPattern key start) rest := by
    intro rest
    refine strstr_step fun h => ?_
    exact absurd (List.cons_prefix_cons.mp h).1 (by decide)
  induction pre with
  | nil =>
    show strstr (keyPattern key start) (comma :: (m.text ++ membersText trailer post)) = _
    rw [hcomma]
    refine strstr_here (show keyPattern key start <+: m.text ++ membersText trailer post from ?_)
    have htext : m.text ++ membersText trailer post =
        quote :: (key ++ quote :: colon :: (m.value.text ++ membersText trailer post)) := by
      rw [← hm]
      simp [Member.text]
    obtain ⟨rest, hrest⟩ := hstart
    rw [htext, ← hrest]
    exact ⟨rest, by simp [keyPattern]⟩
  | cons m' pre ih =>
    obtain ⟨hclean, hne⟩ := hpre m' List.mem_cons_self
    show strstr (keyPattern key start) (comma :: (m'.text ++ membersText trailer (pre ++ m :: post))) = _
    rw [hcomma, strstr_member_append hkey hclean hne]
    exact ih fun m'' h => hpre m'' (List.mem_cons_of_mem _ h)

end

/-- The brace that opens the object is like the comma between members. -/
theorem strstr_objectText (key start trailer : CStr) (m : Member) (ms : List Member) :
    strstr (keyPattern key start) (objectText trailer m ms) =
      strstr (keyPattern key start) (membersText trailer (m :: ms)) := by
  have hopen : ∀ c : U8, c ≠ quote → ∀ rest, strstr (keyPattern key start) (c :: rest) = strstr (keyPattern key start) rest := by
    intro c hc rest
    refine strstr_step fun h => ?_
    exact hc (List.cons_prefix_cons.mp h).1.symm
  show strstr _ (openBrace :: _) = strstr _ (comma :: _)
  rw [hopen openBrace (by decide), hopen comma (by decide)]

/-- **Finding a member.** In an object with different keys, the search for the pattern of a key ends
    at the member with that key, where its value begins as asked. -/
theorem strstr_objectText_of_mem (start trailer : CStr) {m₀ : Member} {ms : List Member}
    (hclean : ∀ m ∈ m₀ :: ms, m.Clean) (hkeys : ((m₀ :: ms).map Member.key).Nodup) {m : Member} (hm : m ∈ m₀ :: ms)
    (hkey : Plain m.key) (hstart : ∀ rest, start <+: m.value.text ++ rest) :
    ∃ post, strstr (keyPattern m.key start) (objectText trailer m₀ ms) = some (m.text ++ membersText trailer post) := by
  obtain ⟨pre, post, hsplit⟩ := List.append_of_mem hm
  refine ⟨post, ?_⟩
  rw [strstr_objectText, hsplit]
  refine strstr_membersText_of_mem hkey (fun m' hm' => ⟨hclean m' ?_, fun heq => ?_⟩) rfl (hstart _)
  · rw [hsplit]
    exact List.mem_append_left _ hm'
  · -- a second member with the key is excluded
    rw [hsplit, List.map_append, List.map_cons] at hkeys
    exact (List.nodup_append.mp hkeys).2.2 m'.key (List.mem_map_of_mem hm') m.key List.mem_cons_self heq

/-- What comes after the pattern is the value, after what it begins with. -/
theorem drop_keyPattern (m : Member) (start rest : CStr) :
    (m.text ++ rest).drop (keyPattern m.key start).length = (m.value.text ++ rest).drop start.length := by
  have hlen : (keyPattern m.key start).length = (quote :: (m.key ++ [quote, colon])).length + start.length := by
    simp [keyPattern]
    omega
  have htext : m.text ++ rest = (quote :: (m.key ++ [quote, colon])) ++ (m.value.text ++ rest) := by
    simp [Member.text]
  rw [hlen, htext, ← List.drop_drop, List.drop_left]

/-! Escapes. -/

def backslash : U8 := 0x5C

/-- The character a backslash and `e` stand for; escapes by number are left out. -/
def unescapeByte (e : U8) : Option U8 :=
  if e = quote ∨ e = backslash ∨ e = 0x2F then some e
  else if e = 0x62 then some 0x08
  else if e = 0x66 then some 0x0C
  else if e = 0x6E then some newline
  else if e = 0x72 then some 0x0D
  else if e = 0x74 then some 0x09
  else none

/-- The characters between the quotes of a string. There are none to an escape that is cut off or
    not known, nor to a quote or a control character that is not escaped. -/
def jsonUnescape : CStr → Option CStr
  | [] => some []
  | c :: rest =>
    if c = backslash then
      match rest with
      | [] => none
      | e :: rest => (unescapeByte e).bind fun b => (jsonUnescape rest).map (b :: ·)
    else if c = quote ∨ c < 0x20 then none
    else (jsonUnescape rest).map (c :: ·)

theorem jsonUnescape_escape {e b : U8} (h : unescapeByte e = some b) (rest : CStr) :
    jsonUnescape (backslash :: e :: rest) = (jsonUnescape rest).map (b :: ·) := by
  rw [jsonUnescape, if_pos rfl, h, Option.bind_some]

theorem jsonUnescape_plain {c : U8} (hesc : c ≠ backslash) (hplain : ¬ (c = quote ∨ c < 0x20)) (rest : CStr) :
    jsonUnescape (c :: rest) = (jsonUnescape rest).map (c :: ·) := by
  rw [jsonUnescape.eq_def]
  dsimp only
  rw [if_neg hesc, if_neg hplain]

end SentinelStack.Lib
