import ScopeLayout.Toml.Integer
import ScopeLayout.Toml.Text

/-!
# `ScopeLayout.Proofs.Toml.Values`: values that are read as they are written

A reader has to be right about more than the texts that some writer happens to
produce, so what is written is said by relations here and not by a writer.
`Text.Spells` relates a text to the ways to write it within double quotes: quote and
backslash behind a backslash, a control character by its number, whose hexadecimal
digits may be small or capital letters, and everything else as it is. `Text.escape`
writes in one of these ways (`Text.spells_escape`). An integer has one decimal
spelling, `Integer.spell`.

* `Integer.parse?_spell`: an integer that fits is read from its spelling. The
  induction is on the number and takes off its last digit, as the spelling does
  (`mapM_digit?_toDigits`). It carries along that only zero begins with zero, since
  the reader refuses leading zeros.
* `Text.read_of_spells`: a written text is read up to its closing quote. The two steps
  of the reader have an induction on the spelling each: `Text.cutLine_of_spells` finds
  the end, and `Text.unescape_of_spells` gives the text back.
-/

set_option autoImplicit false

namespace ScopeLayout.Toml

namespace Integer

/-! ### Integers -/

/-- The character of a digit is read as the digit, in every base that has the digit. -/
theorem digit?_digitChar {base d : Nat} (small : d < base) (known : d < 16) :
    digit? base (Nat.digitChar d) = some d := by
  have hvalue : ∀ d < 16, digit? 16 (Nat.digitChar d) = some d := by decide
  have h := hvalue d known
  rw [digit?, Option.filter_eq_some_iff] at h ⊢
  exact ⟨h.1, by simpa using small⟩

/-- Without underscores, each character is a digit of its own. -/
theorem digits?_eq_mapM {base : Nat} {cs : List Char} (hne : cs ≠ []) (h : '_' ∉ cs) :
    digits? base cs = cs.mapM (digit? base) := by
  fun_induction digits? base cs with
  | case1 => simp at hne
  | case2 c => cases hdigit : digit? base c <;> simp [hdigit]
  | case3 c rest => simp at h
  | case4 c next rest _ ih =>
    have hall : (c :: next :: rest).mapM (digit? base) = _ := List.mapM_cons
    rw [ih (by simp) fun hmem => h (List.mem_cons_of_mem _ hmem), hall]
    rfl

/-- One more digit is the lowest. -/
theorem ofDigits_concat (base : Nat) (digits : List Nat) (d : Nat) :
    ofDigits base (digits ++ [d]) = ofDigits base digits * base + d := by
  simp [ofDigits, List.foldl_append]

/-- The decimal digits of a number spell the number, and they begin with zero only if it is zero. -/
theorem mapM_digit?_toDigits (n : Nat) : ∃ digits,
    (Nat.toDigits 10 n).mapM (digit? 10) = some digits ∧ ofDigits 10 digits = n
      ∧ (digits.head? = some 0 → n = 0) := by
  induction n using Nat.strongRecOn with
  | ind n ih =>
    rcases Nat.lt_or_ge n 10 with hsmall | hlarge
    · refine ⟨[n], ?_, ?_, ?_⟩
      · rw [Nat.toDigits_of_lt_base hsmall]
        simp [digit?_digitChar hsmall (Nat.lt_trans hsmall (by decide))]
      · simp [ofDigits]
      · simp
    · obtain ⟨digits, hdigits, hvalue, hhead⟩ := ih (n / 10) (by omega)
      have hlast : n % 10 < 10 := Nat.mod_lt n (by decide)
      refine ⟨digits ++ [n % 10], ?_, ?_, ?_⟩
      · rw [Nat.toDigits_of_base_le (by decide) hlarge, List.mapM_append, hdigits]
        simp [digit?_digitChar hlast (Nat.lt_trans hlast (by decide))]
      · rw [ofDigits_concat, hvalue]
        omega
      · -- The first digit is that of `n / 10`, which is not zero.
        cases digits with
        | nil =>
          have hzero : n / 10 = 0 := hvalue.symm
          omega
        | cons first rest =>
          intro hzero
          have := hhead hzero
          omega

/-- A number is read from its decimal spelling. -/
theorem decimal?_toDigits (n : Nat) : decimal? (Nat.toDigits 10 n) = some n := by
  obtain ⟨digits, hdigits, hvalue, hhead⟩ := mapM_digit?_toDigits n
  have hread : digits? 10 (Nat.toDigits 10 n) = some digits := by
    rw [digits?_eq_mapM Nat.toDigits_ne_nil Nat.underscore_not_in_toDigits, hdigits]
  rw [decimal?, hread]
  by_cases hzero : n = 0
  · subst hzero
    obtain rfl : [0] = digits := by
      rw [Nat.toDigits_zero] at hdigits
      exact Option.some.inj hdigits
    rfl
  · simp [mt hhead hzero, hvalue]

/-- Digits without a sign or a base before them are a decimal number. -/
theorem unbounded?_of_isDigit {cs : List Char} (h : ∀ c ∈ cs, c.isDigit = true) :
    unbounded? cs = (decimal? cs).map Int.ofNat := by
  have hno : ∀ c ∈ cs, c ≠ 'x' ∧ c ≠ 'o' ∧ c ≠ 'b' ∧ c ≠ '+' ∧ c ≠ '-' := by
    intro c hc
    have hdigit := h c hc
    refine ⟨?_, ?_, ?_, ?_, ?_⟩ <;> rintro rfl <;> simp at hdigit
  unfold unbounded?
  split
  · simp at hno
  · simp at hno
  · simp at hno
  · simp at hno
  · simp at hno
  · rfl

/-- An integer that fits is read from its decimal spelling. -/
theorem parse?_spell {i : Int} (fits : Fits i) : parse? (spell i) = some i := by
  have hread : unbounded? (spell i) = some i := by
    cases i with
    | ofNat n =>
      have hdigits : ∀ c ∈ Nat.toDigits 10 n, c.isDigit = true :=
        fun c hc => Nat.isDigit_of_mem_toDigits (by decide) (by decide) hc
      rw [spell, unbounded?_of_isDigit hdigits, decimal?_toDigits]
      rfl
    | negSucc n =>
      rw [spell, unbounded?, decimal?_toDigits]
      rfl
  rw [parse?, hread, Option.filter_some, if_pos (by simpa using fits)]

end Integer

namespace Text

/-! ### Texts -/

/-- The two ways to write a hexadecimal digit. -/
inductive SpellsDigit (d : Nat) : Char → Prop where
  | lower : SpellsDigit d (Nat.digitChar d)
  | upper : SpellsDigit d (Nat.digitChar d).toUpper

/-- How one character of a text is written within double quotes: the quote and the backslash behind
a backslash, a control character by its number, every other character as it is. -/
inductive SpellsChar (c : Char) : List Char → Prop where
  | marked (mark : c = QuoteMark.double.char ∨ c = '\\') : SpellsChar c ['\\', c]
  | numbered (control : c.toNat < 0x20 ∨ c.toNat = 0x7F) {high low : Char}
      (first : SpellsDigit (c.toNat / 16) high) (second : SpellsDigit (c.toNat % 16) low) :
      SpellsChar c ['\\', 'u', '0', '0', high, low]
  | plain (unmarked : c ≠ QuoteMark.double.char ∧ c ≠ '\\')
      (visible : ¬ (c.toNat < 0x20 ∨ c.toNat = 0x7F)) : SpellsChar c [c]

/-- The text is written like this within double quotes. -/
inductive Spells : List Char → List Char → Prop where
  | nil : Spells [] []
  | cons {c : Char} {text cs spelled : List Char} (first : SpellsChar c cs)
      (others : Spells text spelled) : Spells (c :: text) (cs ++ spelled)

/-- `escape` is one way to write a character. -/
theorem spellsChar_escape (c : Char) : SpellsChar c (escape c) := by
  unfold escape
  split
  · rename_i h
    exact .marked (by simpa using h)
  · rename_i h
    split
    · rename_i control
      exact .numbered (by simpa using control) .lower .lower
    · rename_i visible
      exact .plain (by simpa using h) (by simpa using visible)

/-- `escape` writes a text. -/
theorem spells_escape (text : List Char) : Spells text (text.flatMap escape) := by
  induction text with
  | nil => exact .nil
  | cons c text ih => exact .cons (spellsChar_escape c) ih

/-- Either way to write a hexadecimal digit is read. -/
theorem SpellsDigit.digit?_eq {d : Nat} (small : d < 16) {x : Char} (h : SpellsDigit d x) :
    digit? 16 x = some d := by
  have hboth : ∀ d < 16, digit? 16 (Nat.digitChar d) = some d
      ∧ digit? 16 (Nat.digitChar d).toUpper = some d := by decide
  cases h with
  | lower => exact (hboth d small).1
  | upper => exact (hboth d small).2

/-- A hexadecimal digit is a letter or a decimal digit, so it is no mark and ends no line. -/
theorem SpellsDigit.ne {d : Nat} (small : d < 16) {x : Char} (h : SpellsDigit d x) :
    x ≠ '\n' ∧ x ≠ '\r' ∧ x ≠ QuoteMark.double.char ∧ x ≠ '\\' := by
  have hread := h.digit?_eq small
  refine ⟨?_, ?_, ?_, ?_⟩ <;> rintro rfl <;> simp [digit?, QuoteMark.char] at hread

/-- The number of a control character has two hexadecimal digits, and both are read. -/
theorem codePoint?_of_spellsDigit {c high low : Char} (small : c.toNat < 0x80)
    (first : SpellsDigit (c.toNat / 16) high) (second : SpellsDigit (c.toNat % 16) low) :
    codePoint? 4 ['0', '0', high, low] = some c := by
  have hzero : digit? 16 '0' = some 0 := by decide
  have hfirst := first.digit?_eq (by omega)
  have hsecond := second.digit?_eq (Nat.mod_lt _ (by decide))
  have hvalue : ofDigits 16 [0, 0, c.toNat / 16, c.toNat % 16] = c.toNat := by
    simp [ofDigits]
    omega
  have hvalid : c.toNat.isValidChar := c.valid
  simp [codePoint?, hzero, hfirst, hsecond, hvalue, scalar?, hvalid]

/-- A written text means the text. -/
theorem unescape_of_spells {text spelled : List Char} (h : Spells text spelled) :
    unescape spelled = some text := by
  induction h with
  | nil => rw [unescape]
  | @cons c text cs spelled first _ ih =>
    cases first with
    | marked mark =>
      have hmeant : escapeLetter? c = some c := by
        rcases mark with rfl | rfl <;> rfl
      rw [List.cons_append, List.cons_append, unescape, if_pos rfl]
      simp [hmeant, ih]
    | @numbered control high low first second =>
      have hmeant := codePoint?_of_spellsDigit (by omega) first second
      rw [List.cons_append, List.cons_append, unescape, if_pos rfl]
      simp [escapeLetter?, escapeWidth?, hmeant, ih]
    | plain unmarked visible =>
      have hprintable : isPrintable c = true := by
        simp [isPrintable]
        omega
      rw [List.cons_append, List.nil_append, unescape.eq_def]
      simp [unmarked.2, hprintable, ih]

/-- Within double quotes, a character that is neither quote nor backslash nor line end is passed. -/
theorem cutLine_cons {c : Char} (unmarked : c ≠ QuoteMark.double.char ∧ c ≠ '\\') (same : c ≠ '\n')
    (rest : List Char) : cutLine .double (c :: rest)
      = (cutLine .double rest).map fun (inner, after) => (c :: inner, after) := by
  rw [cutLine.eq_def]
  simp [same, unmarked]

/-- Within double quotes, a backslash is passed with the character behind it. -/
theorem cutLine_backslash {next : Char} (same : next ≠ '\n') (rest : List Char) :
    cutLine .double ('\\' :: next :: rest)
      = (cutLine .double rest).map fun (inner, after) => ('\\' :: next :: inner, after) := by
  rw [cutLine]
  simp [QuoteMark.char, QuoteMark.hasEscapes, same]

/-- A written text ends at the quote behind it. -/
theorem cutLine_of_spells {text spelled : List Char} (h : Spells text spelled) (rest : List Char) :
    cutLine .double (spelled ++ QuoteMark.double.char :: rest) = some (spelled, rest) := by
  induction h with
  | nil =>
    rw [List.nil_append, cutLine.eq_def]
    simp [QuoteMark.char]
  | @cons c text cs spelled first _ ih =>
    cases first with
    | marked mark =>
      have hsame : c ≠ '\n' := by
        rcases mark with rfl | rfl <;> decide
      simp only [List.cons_append, List.nil_append]
      rw [cutLine_backslash hsame, ih]
      rfl
    | @numbered control high low first second =>
      obtain ⟨hhigh, -, hquote, hback⟩ := first.ne (by omega)
      obtain ⟨hlow, -, hquote', hback'⟩ := second.ne (Nat.mod_lt _ (by decide))
      simp only [List.cons_append, List.nil_append]
      rw [cutLine_backslash (by decide), cutLine_cons (by decide) (by decide),
        cutLine_cons (by decide) (by decide), cutLine_cons ⟨hquote, hback⟩ hhigh,
        cutLine_cons ⟨hquote', hback'⟩ hlow, ih]
      rfl
    | plain unmarked visible =>
      have hsame : c ≠ '\n' := by
        rintro rfl
        exact visible (by decide)
      simp only [List.cons_append, List.nil_append]
      rw [cutLine_cons unmarked hsame, ih]
      rfl

/-- A written text has no carriage return. -/
theorem not_mem_of_spells {text spelled : List Char} (h : Spells text spelled) :
    '\r' ∉ spelled := by
  induction h with
  | nil => simp
  | @cons c text cs spelled first _ ih =>
    rw [List.mem_append]
    rintro (hfirst | hothers)
    · cases first with
      | marked mark => rcases mark with rfl | rfl <;> simp [QuoteMark.char] at hfirst
      | @numbered control high low first second =>
        have hhigh := (first.ne (by omega)).2.1
        have hlow := (second.ne (Nat.mod_lt _ (by decide))).2.1
        simp [hhigh.symm, hlow.symm] at hfirst
      | plain _ visible =>
        obtain rfl := List.mem_singleton.mp hfirst
        exact visible (by decide)
    · exact ih hothers

/-- A written text is read within double quotes, if it cannot be taken for one with three of
them. -/
theorem read_of_spells {text spelled rest : List Char} (h : Spells text spelled)
    (apart : rest.head? ≠ some QuoteMark.double.char) :
    read .double (spelled ++ QuoteMark.double.char :: rest) = some (text, rest) := by
  have hsingle : (spelled ++ QuoteMark.double.char :: rest).take 2
      ≠ [QuoteMark.double.char, QuoteMark.double.char] := by
    cases h with
    | nil =>
      cases rest with
      | nil => simp
      | cons next rest => simpa using apart
    | @cons c _ _ _ first _ =>
      cases first with
      | marked _ => simp [QuoteMark.char]
      | numbered _ _ _ => simp [QuoteMark.char]
      | plain unmarked _ =>
        intro htake
        exact unmarked.1 (by simpa using congrArg List.head? htake)
  rw [read, if_neg hsingle, readLine, cutLine_of_spells h]
  simp [meaning, QuoteMark.hasEscapes, unescape_of_spells h]

end Text

end ScopeLayout.Toml
