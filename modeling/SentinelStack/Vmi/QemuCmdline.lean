import SentinelStack.Lib.CText

/- The sockets of a QEMU process, found in its command line (`kvmi_setup.c`).

   `/proc/PID/cmdline` has a NUL after each argument. The reader takes the first 4095
   bytes of it, puts a blank for each NUL, and cuts the text at blanks; the values of
   an option are what stands behind it, or behind `=` in the same word. Where a blank
   in an argument comes from is lost.

   `option_discovered`: if no argument is empty or has a blank, a value within the
   first 4095 bytes is found and is the first usable one of the arguments; and if all
   of them fit, so is the answer that there is none. -/
namespace SentinelStack.Vmi
open SentinelStack.Lib

def blank : U8 := 0x20

/-- `/proc/PID/cmdline` of a process with these arguments. -/
def procCmdline (argv : List CStr) : List U8 := argv.flatMap (· ++ [0])

/-- A blank for each NUL. -/
def blankNul (b : U8) : U8 := if b = 0 then blank else b

/-- What `read_pid_cmdline` leaves in a buffer of that size. -/
def cmdlineText (outSz : Nat) (bytes : List U8) : CStr := (bytes.take (outSz - 1)).map blankNul

/-- The words that `strtok_r(…, " ")` gives in turn, with the part of the next one read so far. -/
def strtokFrom (cur : CStr) : CStr → List CStr
  | [] => if cur = [] then [] else [cur]
  | c :: rest =>
    if c = blank then (if cur = [] then strtokFrom [] rest else cur :: strtokFrom [] rest)
    else strtokFrom (cur ++ [c]) rest

def strtok (s : CStr) : List CStr := strtokFrom [] s

/-- `sizeof(sun_path)`. -/
def sunPathSize : Nat := 108

/-- The length test of both parsers. -/
def socketPath (pathSz : Nat) (path : CStr) : Option CStr :=
  if path.length = 0 ∨ path.length ≥ pathSz ∨ path.length ≥ sunPathSize then none else some path

def comma : U8 := 0x2C

/-- `unix:PATH`, up to a comma. -/
def parseUnixSocketSpec (pathSz : Nat) (spec : CStr) : Option CStr :=
  if ascii "unix:" <+: spec then socketPath pathSz ((spec.drop 5).takeWhile (· ≠ comma)) else none

/-- The text behind the first occurrence of `needle`. -/
def afterFirst (needle : CStr) : CStr → Option CStr
  | [] => if needle = [] then some [] else none
  | c :: rest => if needle <+: c :: rest then some ((c :: rest).drop needle.length) else afterFirst needle rest

/-- `path=PATH`, up to a comma, in a chardev that has `kvmi` somewhere. -/
def parseKvmiChardevSpec (pathSz : Nat) (spec : CStr) : Option CStr :=
  match afterFirst (ascii "path=") spec with
  | none => none
  | some pathPos =>
    match socketPath pathSz (pathPos.takeWhile (· ≠ comma)) with
    | none => none
    | some path => if ¬ Strstr spec (ascii "kvmi") ∧ ¬ Strstr pathPos (ascii "kvmi") then none else some path

/-- The loop over the words: the first value of the option that parses. -/
def extractLoop (option : CStr) (parse : CStr → Option CStr) : List CStr → Option CStr
  | [] => none
  | tok :: rest =>
    if tok = option then
      match rest with
      | [] => none
      | arg :: rest =>
        match parse arg with
        | some path => some path
        | none => extractLoop option parse rest
    else if option ++ ascii "=" <+: tok then
      match parse (tok.drop (option.length + 1)) with
      | some path => some path
      | none => extractLoop option parse rest
    else extractLoop option parse rest

/-- Both searches copy the text to a buffer of 4096 bytes first. -/
def extractPathFromCmdline (option : CStr) (parse : CStr → Option CStr) (cmdline : CStr) : Option CStr :=
  extractLoop option parse (strtok (strncpyz 4096 cmdline))

def extractQmpPathFromCmdline (cmdline : CStr) (pathSz : Nat) : Option CStr :=
  extractPathFromCmdline (ascii "-qmp") (parseUnixSocketSpec pathSz) cmdline

def extractKvmiPathFromCmdline (cmdline : CStr) (pathSz : Nat) : Option CStr :=
  extractPathFromCmdline (ascii "-chardev") (parseKvmiChardevSpec pathSz) cmdline

/-! The values of an option. -/

/-- The values that arguments give an option. -/
def optionValues (option : CStr) : List CStr → List CStr
  | [] => []
  | tok :: rest =>
    if tok = option then
      match rest with
      | [] => []
      | arg :: rest => arg :: optionValues option rest
    else if option ++ ascii "=" <+: tok then tok.drop (option.length + 1) :: optionValues option rest
    else optionValues option rest

section values

variable {option : CStr} {parse : CStr → Option CStr}

theorem optionValues_cons_of_ne {tok : CStr} (h : tok ≠ option) (rest : List CStr) :
    optionValues option (tok :: rest) =
      if option ++ ascii "=" <+: tok then tok.drop (option.length + 1) :: optionValues option rest
      else optionValues option rest := by
  rw [optionValues.eq_def]
  exact if_neg h

/-- The first value of the option that parses. -/
theorem extractLoop_eq (words : List CStr) : extractLoop option parse words = (optionValues option words).findSome? parse := by
  fun_induction optionValues option words with
  | case1 => rfl
  | case2 => simp [extractLoop]
  | case3 arg rest ih =>
    rw [extractLoop, if_pos rfl, List.findSome?_cons, ih]
    cases parse arg <;> rfl
  | case4 tok rest hne heq ih =>
    unfold extractLoop
    rw [if_neg hne, if_pos heq, List.findSome?_cons, ih]
    cases parse (tok.drop (option.length + 1)) <;> rfl
  | case5 tok rest hne heq ih =>
    unfold extractLoop
    rw [if_neg hne, if_neg heq, ih]

/-- More arguments give more values. -/
theorem optionValues_append (pre post : List CStr) : optionValues option pre <+: optionValues option (pre ++ post) := by
  fun_induction optionValues option pre with
  | case1 => exact List.nil_prefix
  | case2 => exact List.nil_prefix
  | case3 arg rest ih =>
    rw [List.cons_append, List.cons_append, optionValues, if_pos rfl]
    exact (List.prefix_cons_inj _).mpr ih
  | case4 tok rest hne heq ih =>
    rw [List.cons_append, optionValues_cons_of_ne hne, if_pos heq]
    exact (List.prefix_cons_inj _).mpr ih
  | case5 tok rest hne heq ih =>
    rw [List.cons_append, optionValues_cons_of_ne hne, if_neg heq]
    exact ih

end values

/-! The words of a command line. -/

/-- An argument that stays one word. -/
structure PlainArg (arg : CStr) : Prop where
  ne_nil : arg ≠ []
  no_blank : blank ∉ arg
  no_nul : 0 ∉ arg

theorem map_blankNul {arg : CStr} (h : 0 ∉ arg) : arg.map blankNul = arg := by
  refine (List.map_congr_left fun b hb => ?_).trans (List.map_id arg)
  apply if_neg
  rintro rfl
  exact h hb

theorem strtokFrom_word {word : CStr} (h : blank ∉ word) (cur rest : CStr) :
    strtokFrom cur (word ++ rest) = strtokFrom (cur ++ word) rest := by
  induction word generalizing cur with
  | nil => rw [List.nil_append, List.append_nil]
  | cons c word ih =>
    obtain ⟨hc, hword⟩ := not_or.mp (mt List.mem_cons.mpr h)
    rw [List.cons_append, strtokFrom, if_neg (Ne.symm hc), ih hword, List.append_assoc, List.singleton_append]

/-- The arguments are the words of their part of the text. -/
theorem strtok_procCmdline {argv : List CStr} (h : ∀ arg ∈ argv, PlainArg arg) (rest : CStr) :
    strtok ((procCmdline argv).map blankNul ++ rest) = argv ++ strtok rest := by
  induction argv with
  | nil => rfl
  | cons arg argv ih =>
    obtain ⟨harg, hargv⟩ := List.forall_mem_cons.mp h
    have htext : (procCmdline (arg :: argv)).map blankNul ++ rest =
        arg ++ blank :: ((procCmdline argv).map blankNul ++ rest) := by
      rw [procCmdline, List.flatMap_cons, List.map_append, List.map_append, map_blankNul harg.no_nul]
      simp [procCmdline, blankNul]
    rw [htext, strtok, strtokFrom_word harg.no_blank, List.nil_append, strtokFrom, if_pos rfl, if_neg harg.ne_nil]
    exact congrArg (arg :: ·) (ih hargv)

/-- The words of the text that the reader has, for arguments that fit. -/
theorem words_of_fits {pre : List CStr} (post : List CStr) (h : ∀ arg ∈ pre, PlainArg arg)
    (hfits : (procCmdline pre).length < 4096) :
    ∃ words, strtok (strncpyz 4096 (cmdlineText 4096 (procCmdline (pre ++ post)))) = pre ++ words ∧
      (post = [] → words = []) := by
  have htext : strncpyz 4096 (cmdlineText 4096 (procCmdline (pre ++ post))) =
      (procCmdline pre).map blankNul ++ ((procCmdline post).take (4095 - (procCmdline pre).length)).map blankNul := by
    show (((procCmdline (pre ++ post)).take 4095).map blankNul).take 4095 = _
    rw [List.take_of_length_le (by simp), procCmdline, List.flatMap_append]
    show List.map blankNul (List.take 4095 (procCmdline pre ++ procCmdline post)) = _
    rw [List.take_append, List.map_append, List.take_of_length_le (by omega)]
  refine ⟨strtok (((procCmdline post).take (4095 - (procCmdline pre).length)).map blankNul), ?_, ?_⟩
  · rw [htext, strtok_procCmdline h]
  · rintro rfl
    show strtok (List.map blankNul (List.take _ [])) = []
    rw [List.take_nil]
    rfl

/-- **What is found of an option.** Arguments that are not empty and have no blanks: a usable value among
    those that lie within the first 4095 bytes is found, and it is the first; and if all of them do, the
    search says exactly what the arguments do. -/
theorem option_discovered (option : CStr) (parse : CStr → Option CStr) {pre post : List CStr}
    (hplain : ∀ arg ∈ pre, PlainArg arg) (hfits : (procCmdline pre).length < 4096) :
    (∀ path, (optionValues option pre).findSome? parse = some path →
      extractPathFromCmdline option parse (cmdlineText 4096 (procCmdline (pre ++ post))) = some path) ∧
    extractPathFromCmdline option parse (cmdlineText 4096 (procCmdline pre)) = (optionValues option pre).findSome? parse := by
  constructor
  · intro path hpath
    obtain ⟨words, hwords, -⟩ := words_of_fits post hplain hfits
    obtain ⟨more, hmore⟩ : optionValues option pre <+: optionValues option (pre ++ words) := optionValues_append pre words
    rw [extractPathFromCmdline, hwords, extractLoop_eq, ← hmore, List.findSome?_append, hpath]
    rfl
  · obtain ⟨words, hwords, hnil⟩ := words_of_fits [] hplain hfits
    rw [List.append_nil] at hwords
    rw [extractPathFromCmdline, hwords, hnil rfl, List.append_nil, extractLoop_eq]

def sampleArgv : List CStr := [ascii "qemu-kvm", ascii "-qmp", ascii "unix:/run/q.sock,server"]

theorem option_discovered_sample :
    extractQmpPathFromCmdline (cmdlineText 4096 (procCmdline (sampleArgv ++ [ascii "-name a b"]))) 108 =
      some (ascii "/run/q.sock") := by
  have hplain : ∀ arg ∈ sampleArgv, PlainArg arg :=
    List.forall_mem_cons.mpr ⟨⟨by decide, by decide, by decide⟩,
      List.forall_mem_cons.mpr ⟨⟨by decide, by decide, by decide⟩,
        List.forall_mem_singleton.mpr ⟨by decide, by decide, by decide⟩⟩⟩
  have hvalue : (optionValues (ascii "-qmp") sampleArgv).findSome? (parseUnixSocketSpec 108) = some (ascii "/run/q.sock") := by
    decide
  exact (option_discovered _ _ hplain (by decide)).1 _ hvalue

end SentinelStack.Vmi
