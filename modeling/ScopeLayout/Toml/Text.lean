import ScopeLayout.Toml.Character

/-!
# `ScopeLayout.Toml.Text`: the texts of TOML

TOML writes a text in one of four ways: within double quotes, where a backslash
begins an escape, or within single quotes, where nothing does; and with one
quote at either end, on one line, or with three, over several lines.

A text is read in two steps. The first finds its end: `cutLine` for the texts
on one line and `cutLines` for the others. The second says what the characters
between the quotes mean: `unescape` where escapes are known and `verbatim`
where they are not. `quote` writes a text within double quotes.
-/

set_option autoImplicit false

namespace ScopeLayout.Toml

/-- The two marks with which a text is quoted. -/
inductive QuoteMark where
  -- The double quote, within which a backslash begins an escape.
  | double
  -- The single quote, within which every character stands for itself.
  | single
deriving DecidableEq, Repr

namespace QuoteMark

/-- The character that is written. -/
def char : QuoteMark → Char
  | .double => '\x22'
  | .single => '\x27'

/-- Whether a backslash begins an escape. -/
def hasEscapes : QuoteMark → Bool
  | .double => true
  | .single => false

/-- The mark that a character is. -/
def of? (c : Char) : Option QuoteMark :=
  if c = double.char then some .double else if c = single.char then some .single else none

end QuoteMark

namespace Text

/-! ### Where a text ends -/

/-- Cuts a text on one line at its closing quote. With escapes, the character behind a
backslash closes nothing. -/
def cutLine (mark : QuoteMark) : List Char → Option (List Char × List Char)
  | [] => none
  | c :: rest =>
    if c = '\n' then none
    else if c = mark.char then some ([], rest)
    else if mark.hasEscapes && c = '\\' then
      match rest with
      | [] => none
      | next :: rest =>
        if next = '\n' then none
        else (cutLine mark rest).map fun (inner, after) => (c :: next :: inner, after)
    else (cutLine mark rest).map fun (inner, after) => (c :: inner, after)

/-- Cuts behind the quotes that follow three closing ones and still belong to the text: two at
most. -/
def cutSpareQuotes (mark : QuoteMark) (s : List Char) : List Char × List Char :=
  s.splitAt (min 2 (s.takeWhile (· = mark.char)).length)

/-- Cuts a text over several lines at its three closing quotes. If more than three quotes
stand there, the text ends with the first of them. -/
def cutLines (mark : QuoteMark) : List Char → Option (List Char × List Char)
  | [] => none
  | c :: rest =>
    if c = mark.char && rest.take 2 = [mark.char, mark.char] then
      some (cutSpareQuotes mark (rest.drop 2))
    else if mark.hasEscapes && c = '\\' then
      match rest with
      | [] => none
      | next :: rest =>
        (cutLines mark rest).map fun (inner, after) => (c :: next :: inner, after)
    else (cutLines mark rest).map fun (inner, after) => (c :: inner, after)

/-! ### What the characters of a text mean -/

/-- The character that a backslash and one letter stand for. -/
def escapeLetter? : Char → Option Char
  | 'b' => some '\x08'
  | 't' => some '\t'
  | 'n' => some '\n'
  | 'f' => some '\x0C'
  | 'r' => some '\r'
  | '\x22' => some '\x22'
  | '\\' => some '\\'
  | _ => none

/-- The number of hexadecimal digits that follow a letter behind a backslash. -/
def escapeWidth? : Char → Option Nat
  | 'u' => some 4
  | 'U' => some 8
  | _ => none

/-- The character with this number. Surrogates and numbers past the last character have none. -/
def scalar? (n : Nat) : Option Char := if n.isValidChar then some (Char.ofNat n) else none

/-- The character whose number is spelled by exactly `width` hexadecimal digits. -/
def codePoint? (width : Nat) (cs : List Char) : Option Char :=
  if cs.length = width then (cs.mapM (digit? 16)).bind fun digits => scalar? (ofDigits 16 digits)
  else none

/-- What a text means in which a backslash begins an escape. A backslash at the end of a line
takes away the line end with all blanks and line ends behind it. -/
def unescape : List Char → Option (List Char)
  | [] => some []
  | c :: rest =>
    if c = '\\' then
      match rest with
      | [] => none
      | letter :: after =>
        match escapeLetter? letter with
        | some meant => (unescape after).map (meant :: ·)
        | none =>
          match escapeWidth? letter with
          | some width =>
            (codePoint? width (after.take width)).bind fun meant =>
              (unescape (after.drop width)).map (meant :: ·)
          | none =>
            if ((letter :: after).dropWhile isBlank).head? = some '\n' then
              unescape ((letter :: after).dropWhile fun c => isBlank c || c = '\n')
            else none
    else if isPrintable c || c = '\n' then (unescape rest).map (c :: ·)
    else none
termination_by cs => cs.length
decreasing_by
  · simp only [List.length_cons]; omega
  · simp only [List.length_cons, List.length_drop]; omega
  · exact Nat.lt_succ_of_le (List.dropWhile_sublist _).length_le
  · simp only [List.length_cons]; omega

/-- What a text means in which nothing is an escape. -/
def verbatim (cs : List Char) : Option (List Char) :=
  if cs.all fun c => isPrintable c || c = '\n' then some cs else none

/-! ### The four kinds of text -/

/-- What the characters between two quotes mean. -/
def meaning (mark : QuoteMark) (inner : List Char) : Option (List Char) :=
  if mark.hasEscapes then unescape inner else verbatim inner

/-- Reads a text on one line, from behind its opening quote. -/
def readLine (mark : QuoteMark) (s : List Char) : Option (List Char × List Char) := do
  let (inner, after) ← cutLine mark s
  let text ← meaning mark inner
  some (text, after)

/-- Reads a text over several lines, from behind its opening quotes. A line end that directly
follows them does not belong to the text. -/
def readLines (mark : QuoteMark) (s : List Char) : Option (List Char × List Char) := do
  let (inner, after) ← cutLines mark (if s.head? = some '\n' then s.drop 1 else s)
  let text ← meaning mark inner
  some (text, after)

/-- Reads a text, from behind its first opening quote. -/
def read (mark : QuoteMark) (s : List Char) : Option (List Char × List Char) :=
  if s.take 2 = [mark.char, mark.char] then readLines mark (s.drop 2) else readLine mark s

/-! Reading a text takes at least its closing quote, so less is left. -/

/-- What follows a text on one line is shorter, as its closing mark is gone. -/
theorem length_cutLine {mark : QuoteMark} {s inner after : List Char}
    (h : cutLine mark s = some (inner, after)) : after.length < s.length := by
  fun_induction cutLine mark s generalizing inner with
  | case1 => simp at h
  | case2 => simp at h
  | case3 c rest =>
    cases h
    exact Nat.lt_succ_self _
  | case4 => simp at h
  | case5 => simp at h
  | case6 c _ _ _ next rest _ ih =>
    obtain ⟨⟨tail, left⟩, htail, heq⟩ := Option.map_eq_some_iff.mp h
    cases heq
    have := ih htail
    simp only [List.length_cons]
    omega
  | case7 c rest _ _ _ ih =>
    obtain ⟨⟨tail, left⟩, htail, heq⟩ := Option.map_eq_some_iff.mp h
    cases heq
    have := ih htail
    simp only [List.length_cons]
    omega

/-- So is what follows a text of several lines. -/
theorem length_cutLines {mark : QuoteMark} {s inner after : List Char}
    (h : cutLines mark s = some (inner, after)) : after.length < s.length := by
  fun_induction cutLines mark s generalizing inner with
  | case1 => simp at h
  | case2 c rest =>
    have left := congrArg Prod.snd (Option.some.inj h)
    simp only [cutSpareQuotes, List.splitAt_eq] at left
    rw [← left]
    simp only [List.length_cons, List.length_drop]
    omega
  | case3 => simp at h
  | case4 c _ next rest _ ih =>
    obtain ⟨⟨tail, left⟩, htail, heq⟩ := Option.map_eq_some_iff.mp h
    cases heq
    have := ih htail
    simp only [List.length_cons]
    omega
  | case5 c rest _ _ ih =>
    obtain ⟨⟨tail, left⟩, htail, heq⟩ := Option.map_eq_some_iff.mp h
    cases heq
    have := ih htail
    simp only [List.length_cons]
    omega

/-- The same holds when the text is read and not only cut out. -/
theorem length_readLine {mark : QuoteMark} {s text rest : List Char}
    (h : readLine mark s = some (text, rest)) : rest.length < s.length := by
  simp only [readLine, Option.bind_eq_bind, Option.bind_eq_some_iff] at h
  obtain ⟨⟨inner, after⟩, hcut, _, _, heq⟩ := h
  cases heq
  exact length_cutLine hcut

/-- And for several lines. -/
theorem length_readLines {mark : QuoteMark} {s text rest : List Char}
    (h : readLines mark s = some (text, rest)) : rest.length < s.length := by
  simp only [readLines, Option.bind_eq_bind, Option.bind_eq_some_iff] at h
  obtain ⟨⟨inner, after⟩, hcut, _, _, heq⟩ := h
  cases heq
  have short := length_cutLines hcut
  dsimp only at short ⊢
  split at short
  · simp only [List.length_drop] at short
    omega
  · exact short

/-- And for a text of either kind. -/
theorem length_read {mark : QuoteMark} {s text rest : List Char}
    (h : read mark s = some (text, rest)) : rest.length < s.length := by
  unfold read at h
  split at h
  · have := length_readLines h
    simp only [List.length_drop] at this
    omega
  · exact length_readLine h

/-! ### Writing -/

/-- One character of a written text: quote and backslash behind a backslash, a control
character by its number, every other character as it is. -/
def escape (c : Char) : List Char :=
  if c = QuoteMark.double.char || c = '\\' then ['\\', c]
  else if c.toNat < 0x20 || c.toNat = 0x7F then
    ['\\', 'u', '0', '0', Nat.digitChar (c.toNat / 16), Nat.digitChar (c.toNat % 16)]
  else [c]

/-- A text on one line within double quotes. -/
def quote (text : List Char) : List Char :=
  QuoteMark.double.char :: (text.flatMap escape ++ [QuoteMark.double.char])

end Text

end ScopeLayout.Toml
