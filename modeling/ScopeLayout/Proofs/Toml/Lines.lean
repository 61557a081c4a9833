import ScopeLayout.Proofs.Toml.Values
import ScopeLayout.Toml.Document

/-!
# `ScopeLayout.Proofs.Toml.Lines`: documents that are read as they are written

A written document has one line for each entry: a key without quotes, an equals sign
between blanks, and the value as `Proofs.Toml.Values` says that values are written.
`Value.Spells`, `Entry.Spells` and `Document.Spells` are these rules, one relation for
each part, and `Document.write` keeps them (`Document.spells_write`).

Each part is read up to the character at which the next one begins. A key ends at the
blank, an integer at the end of the line, a text at its closing quote (`cut_word`,
`EndsLine`). So a line leaves exactly the lines behind it (`readLine_of_spells`), and
the induction on the written document gives all entries (`readLines_of_spells`).

`Document.read_of_spells` is the result: the entries of a written document are read
back, in their order, unless a key is given twice. Then nothing is read.
-/

set_option autoImplicit false

namespace ScopeLayout.Toml

/-! ### Written values, entries and documents -/

/-- The value is written like this: an integer in decimal, a text within double quotes. -/
inductive Value.Spells : Value → List Char → Prop where
  | int {i : Int} (fits : Integer.Fits i) : Spells (.int i) (Integer.spell i)
  | text {text : String} {spelled : List Char} (spells : Text.Spells text.toList spelled) :
      Spells (.text text) (QuoteMark.double.char :: (spelled ++ [QuoteMark.double.char]))

/-- The key needs no quotes. -/
def IsBare (key : String) : Prop := key ≠ "" ∧ ∀ c ∈ key.toList, isBareKey c = true

/-- Whether a key needs no quotes can be computed. -/
theorem isBare_iff {key : String} : IsBare key ↔ key ≠ "" ∧ key.toList.all isBareKey = true := by
  rw [IsBare, List.all_eq_true]

/-- The entry is written like this: its key, an equals sign between blanks, and its value. -/
inductive Entry.Spells : Entry → List Char → Prop where
  | mk {key : String} {value : Value} {cs : List Char} (bare : IsBare key)
      (written : value.Spells cs) : Spells ⟨key, value⟩ (key.toList ++ ' ' :: '=' :: ' ' :: cs)

/-- The document is written like this: a line for each entry. The last line may lack its end. -/
inductive Document.Spells : List Entry → List Char → Prop where
  | nil : Spells [] []
  | last {entry : Entry} {line : List Char} (written : entry.Spells line) : Spells [entry] line
  | line {entry : Entry} {entries : List Entry} {line rest : List Char}
      (written : entry.Spells line) (others : Spells entries rest) :
      Spells (entry :: entries) (line ++ '\n' :: rest)

/-- What may stand behind an entry: nothing, or the end of the line and what follows it. -/
inductive EndsLine : List Char → Prop where
  | last : EndsLine []
  | next (rest : List Char) : EndsLine ('\n' :: rest)

/-! ### Characters of keys and integers -/

/-- A character of a bare key is a letter, a digit, an underscore or a hyphen, so it is none of the
characters that mean something else at the beginning of a line. -/
theorem ne_of_isBareKey {c : Char} (h : isBareKey c = true) :
    isBlank c = false ∧ QuoteMark.of? c = none ∧ c ≠ '#' ∧ c ≠ '\n' ∧ c ≠ '\r' ∧ c ≠ '\uFEFF' := by
  have hnot : ∀ d, isBareKey d = false → c ≠ d := by
    rintro d hd rfl
    rw [h] at hd
    cases hd
  have hblank := hnot ' ' (by decide)
  have htab := hnot '\t' (by decide)
  have hdouble := hnot QuoteMark.double.char (by decide)
  have hsingle := hnot QuoteMark.single.char (by decide)
  refine ⟨?_, ?_, hnot '#' (by decide), hnot '\n' (by decide), hnot '\r' (by decide),
    hnot '\uFEFF' (by decide)⟩
  · simp [isBlank, hblank, htab]
  · rw [QuoteMark.of?, if_neg hdouble, if_neg hsingle]

/-- An integer is written with characters of bare keys: digits, and perhaps a hyphen. -/
theorem Integer.isBareKey_of_mem_spell {i : Int} {c : Char} (h : c ∈ spell i) :
    isBareKey c = true := by
  have hdigit : ∀ {n : Nat}, c ∈ Nat.toDigits 10 n → isBareKey c = true := by
    intro n hc
    have hc := Nat.isDigit_of_mem_toDigits (by decide) (by decide) hc
    simp [isBareKey, Char.isAlphanum, hc]
  cases i with
  | ofNat n => exact hdigit h
  | negSucc n =>
    rcases List.mem_cons.mp h with rfl | h
    · decide
    · exact hdigit h

/-- An integer is written with at least one character. -/
theorem Integer.spell_ne_nil (i : Int) : spell i ≠ [] := by
  cases i with
  | ofNat n => exact Nat.toDigits_ne_nil
  | negSucc n => exact List.cons_ne_nil _ _

/-- A word of such characters does not begin with a quote. -/
theorem no_mark_of_isBareKey {word : List Char} (hne : word ≠ [])
    (h : ∀ c ∈ word, isBareKey c = true) (rest : List Char) :
    (word ++ rest).head?.bind QuoteMark.of? = none := by
  cases word with
  | nil => exact absurd rfl hne
  | cons c word => exact (ne_of_isBareKey (h c List.mem_cons_self)).2.1

/-- A word is cut off where the first character stands that cannot belong to it. -/
theorem cut_word {p : Char → Bool} {word rest : List Char} (inside : ∀ c ∈ word, p c = true)
    (outside : ∀ c, rest.head? = some c → p c = false) :
    (word ++ rest).takeWhile p = word ∧ (word ++ rest).dropWhile p = rest := by
  rw [List.takeWhile_append_of_pos inside, List.dropWhile_append_of_pos inside]
  cases rest with
  | nil => simp
  | cons c rest => simp [outside c rfl]

/-! ### Reading what is written -/

/-- A value does not go on with what stands behind an entry. -/
theorem EndsLine.not_isInValue {rest : List Char} (ends : EndsLine rest) (c : Char)
    (h : rest.head? = some c) : Document.isInValue c = false := by
  cases ends with
  | last => simp at h
  | next rest =>
    obtain rfl := Option.some.inj h
    decide

/-- A written value begins with a character that is no blank. -/
theorem Value.Spells.eq_cons {value : Value} {cs : List Char} (h : value.Spells cs) :
    ∃ c rest, cs = c :: rest ∧ isBlank c = false := by
  cases h with
  | @int i fits =>
    cases hspell : Integer.spell i with
    | nil => exact absurd hspell (Integer.spell_ne_nil i)
    | cons c rest =>
      have hc : c ∈ Integer.spell i := hspell ▸ List.mem_cons_self
      exact ⟨c, rest, rfl, (ne_of_isBareKey (Integer.isBareKey_of_mem_spell hc)).1⟩
  | text spells => exact ⟨_, _, rfl, by decide⟩

/-- A written entry begins with a character of its key. -/
theorem Entry.Spells.eq_cons {entry : Entry} {line : List Char} (h : entry.Spells line) :
    ∃ c rest, line = c :: rest ∧ isBareKey c = true := by
  cases h with
  | @mk key value cs bare _ =>
    cases hkey : key.toList with
    | nil => exact absurd (String.toList_eq_nil_iff.mp hkey) bare.1
    | cons c rest => exact ⟨c, _, rfl, bare.2 c (hkey ▸ List.mem_cons_self)⟩

namespace Document

/-- A value is read as it is written, up to the end of its line. -/
theorem readValue_of_spells {value : Value} {cs rest : List Char} (h : value.Spells cs)
    (ends : EndsLine rest) : readValue (cs ++ rest) = some (value, rest) := by
  cases h with
  | @int i fits =>
    have hvalue : ∀ c ∈ Integer.spell i, isInValue c = true := by
      intro c hc
      obtain ⟨hblank, -, hcomment, hline, -⟩ :=
        ne_of_isBareKey (Integer.isBareKey_of_mem_spell hc)
      simp [isInValue, hblank, hcomment, hline]
    have hmark := no_mark_of_isBareKey (Integer.spell_ne_nil i)
      (fun _ hc => Integer.isBareKey_of_mem_spell hc) rest
    obtain ⟨htake, hdrop⟩ := cut_word hvalue ends.not_isInValue
    rw [readValue, hmark]
    simp only [htake, hdrop, Integer.parse?_spell fits, Option.map_some]
  | @text text spelled spells =>
    have apart : rest.head? ≠ some QuoteMark.double.char := by
      cases ends with
      | last => simp
      | next rest => simp [QuoteMark.char]
    have hread := Text.read_of_spells spells apart
    rw [List.cons_append, List.append_assoc, List.singleton_append, readValue]
    simp [QuoteMark.of?, hread]

/-- A bare key is read up to the first character that cannot belong to it. -/
theorem readKey_of_isBare {key : String} (bare : IsBare key) {rest : List Char}
    (outside : ∀ c, rest.head? = some c → isBareKey c = false) :
    readKey (key.toList ++ rest) = some (key, rest) := by
  have hne : key.toList ≠ [] := mt String.toList_eq_nil_iff.mp bare.1
  have hmark := no_mark_of_isBareKey hne bare.2 rest
  obtain ⟨htake, hdrop⟩ := cut_word bare.2 outside
  rw [readKey, hmark]
  simp only [htake, hdrop, List.isEmpty_iff, if_neg hne, String.ofList_toList]

/-- So is an entry. -/
theorem readEntry_of_spells {entry : Entry} {line rest : List Char} (h : entry.Spells line)
    (ends : EndsLine rest) : readEntry (line ++ rest) = some (entry, rest) := by
  cases h with
  | @mk key value cs bare written =>
    have hkey : readKey (key.toList ++ ' ' :: '=' :: ' ' :: (cs ++ rest))
        = some (key, ' ' :: '=' :: ' ' :: (cs ++ rest)) := by
      refine readKey_of_isBare bare ?_
      intro c hc
      obtain rfl := Option.some.inj hc
      decide
    have hequals : readEquals (' ' :: '=' :: ' ' :: (cs ++ rest)) = some (cs ++ rest) := by
      obtain ⟨c, tail, rfl, hblank⟩ := written.eq_cons
      have hspace : isBlank ' ' = true := rfl
      have hequals : isBlank '=' = false := rfl
      simp [readEquals, hspace, hequals, hblank]
    rw [List.append_assoc, List.cons_append, List.cons_append, List.cons_append, readEntry, hkey]
    simp [hequals, readValue_of_spells written ends]

/-- Behind an entry the line ends, and the next lines follow if there is an end. -/
theorem endLine_of_endsLine {rest : List Char} (ends : EndsLine rest) :
    endLine rest = some (nextLines? rest) := by
  cases ends with
  | last => rfl
  | next rest =>
    have hblank : isBlank '\n' = false := rfl
    simp [endLine, hblank, isComment]

/-- A written entry is read from its line. -/
theorem readLine_of_spells {entry : Entry} {line rest : List Char} (h : entry.Spells line)
    (ends : EndsLine rest) : readLine (line ++ rest) = some (some entry, nextLines? rest) := by
  have hread := readEntry_of_spells h ends
  obtain ⟨c, tail, rfl, hbare⟩ := h.eq_cons
  obtain ⟨hblank, -, hcomment, hline, -⟩ := ne_of_isBareKey hbare
  have hstart : (c :: tail ++ rest).dropWhile isBlank = c :: tail ++ rest := by
    simp [hblank]
  have hidle : isIdle (c :: tail ++ rest) = false := by
    rw [isIdle, hstart]
    simp [hcomment, hline]
  rw [readLine, hidle, hstart, hread]
  simp [endLine_of_endsLine ends]

/-- The entries of a written document are read from its lines. -/
theorem readLines_of_spells {entries : List Entry} {cs : List Char} (h : Spells entries cs) :
    readLines cs = some entries := by
  induction h with
  | nil =>
    rw [readLines]
    rfl
  | @last entry line written =>
    have hline := readLine_of_spells written .last
    rw [List.append_nil] at hline
    rw [readLines, hline]
    rfl
  | @line entry entries line rest written _ ih =>
    have hline := readLine_of_spells written (.next rest)
    have hnext : nextLines? ('\n' :: rest) = some rest := rfl
    rw [hnext] at hline
    rw [readLines, hline]
    simp [ih]

/-- A written entry has no carriage return. -/
theorem not_mem_of_entry_spells {entry : Entry} {line : List Char} (h : entry.Spells line) :
    '\r' ∉ line := by
  cases h with
  | @mk key value cs bare written =>
    have hword : ∀ {word : List Char}, (∀ c ∈ word, isBareKey c = true) → '\r' ∉ word := by
      intro word hword hmem
      exact absurd (hword '\r' hmem) (by decide)
    have hvalue : '\r' ∉ cs := by
      cases written with
      | int _ => exact hword fun c hc => Integer.isBareKey_of_mem_spell hc
      | text spells => simp [QuoteMark.char, Text.not_mem_of_spells spells]
    simp [hword bare.2, hvalue]

/-- A written document has no carriage return. -/
theorem not_mem_of_spells {entries : List Entry} {cs : List Char} (h : Spells entries cs) :
    '\r' ∉ cs := by
  induction h with
  | nil => simp
  | last written => exact not_mem_of_entry_spells written
  | line written _ ih => simp [not_mem_of_entry_spells written, ih]

/-- A written document does not begin with a byte order mark. -/
theorem head?_of_spells {entries : List Entry} {cs : List Char} (h : Spells entries cs) :
    cs.head? ≠ some '\uFEFF' := by
  have hentry : ∀ {entry : Entry} {line : List Char}, entry.Spells line → ∀ rest,
      (line ++ rest).head? ≠ some '\uFEFF' := by
    intro entry line written rest
    obtain ⟨c, tail, rfl, hbare⟩ := written.eq_cons
    simpa using (ne_of_isBareKey hbare).2.2.2.2.2
  cases h with
  | nil => simp
  | last written =>
    rw [← List.append_nil cs]
    exact hentry written []
  | line written _ => exact hentry written _

/-- A document is read as it is written, if no key is given twice. If one is, it is refused. -/
theorem read_of_spells {entries : List Entry} {source : String}
    (h : Spells entries source.toList) :
    read source = if (entries.map Entry.key).Nodup then some entries else none := by
  have hmark := head?_of_spells h
  have hends := unifyLineEnds_of_not_mem (not_mem_of_spells h)
  have hlines := readLines_of_spells h
  rw [read]
  generalize source.toList = cs at hmark hends hlines
  split
  · exact absurd rfl hmark
  · simp [hends, hlines]

/-- `write` is one way to write a document. -/
theorem spells_write {entries : List Entry} (bare : ∀ entry ∈ entries, IsBare entry.key)
    (fits : ∀ entry ∈ entries, ∀ i, entry.value = .int i → Integer.Fits i) :
    Spells entries (write entries).toList := by
  rw [write, String.toList_ofList]
  induction entries with
  | nil => exact .nil
  | cons entry entries ih =>
    have hothers := ih (fun e he => bare e (List.mem_cons_of_mem _ he))
      (fun e he => fits e (List.mem_cons_of_mem _ he))
    have hvalue : entry.value.Spells (writeValue entry.value) := by
      cases hvalue : entry.value with
      | int i => exact .int (fits entry List.mem_cons_self i hvalue)
      | text text => exact .text (Text.spells_escape text.toList)
    have hline := Spells.line (.mk (bare entry List.mem_cons_self) hvalue) hothers
    simpa [writeEntry] using hline

end Document

end ScopeLayout.Toml
