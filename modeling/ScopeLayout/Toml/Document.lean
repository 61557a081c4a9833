import ScopeLayout.Toml.Integer
import ScopeLayout.Toml.Text

/-!
# `ScopeLayout.Toml.Document`: flat tables of integers and texts

A flat table is a TOML document that gives integers and texts to keys of one
part, one to a line. Blank lines and comments may stand anywhere. Documents
with anything else in them (headers, keys with dots, other values) are no flat
tables, even where TOML has a meaning for them, and neither is a document that
gives one key twice.

`Document.read` reads a flat table and `Document.write` writes one.
-/

set_option autoImplicit false

namespace ScopeLayout.Toml

/-- What a key of a flat table can have. -/
inductive Value where
  -- An integer that fits 64 bits with sign.
  | int (value : Int)
  | text (value : String)
deriving DecidableEq, Repr

/-- A key with its value. -/
structure Entry where
  key : String
  value : Value
deriving DecidableEq, Repr

namespace Document

/-! ### Reading -/

/-- Reads a key: a word of letters, digits, underscores and hyphens, or a quoted text on one
line. -/
def readKey (s : List Char) : Option (String × List Char) :=
  match s.head?.bind QuoteMark.of? with
  | some mark => (Text.readLine mark (s.drop 1)).map fun (key, rest) => (String.ofList key, rest)
  | none =>
    if (s.takeWhile isBareKey).isEmpty then none
    else some (String.ofList (s.takeWhile isBareKey), s.dropWhile isBareKey)

/-- Whether a value without quotes goes on with this character. -/
def isInValue (c : Char) : Bool := !(isBlank c || c = '#' || c = '\n')

/-- Reads a value. -/
def readValue (s : List Char) : Option (Value × List Char) :=
  match s.head?.bind QuoteMark.of? with
  | some mark =>
    (Text.read mark (s.drop 1)).map fun (text, rest) => (.text (String.ofList text), rest)
  | none =>
    (Integer.parse? (s.takeWhile isInValue)).map fun i => (.int i, s.dropWhile isInValue)

/-- Reads the equals sign and the blanks around it. -/
def readEquals (s : List Char) : Option (List Char) :=
  match s.dropWhile isBlank with
  | '=' :: rest => some (rest.dropWhile isBlank)
  | _ => none

/-- Reads a key, the equals sign and the value. -/
def readEntry (s : List Char) : Option (Entry × List Char) := do
  let (key, rest) ← readKey s
  let rest ← readEquals rest
  let (value, rest) ← readValue rest
  some ({ key, value }, rest)

/-- Whether the rest of a line, without the blanks before it, is nothing or a comment. -/
def isComment (line : List Char) : Bool :=
  line.isEmpty || (line.head? = some '#' && line.all isPrintable)

/-- The text of the lines behind the first, unless it is the last. -/
def nextLines? (s : List Char) : Option (List Char) :=
  match s.dropWhile (· ≠ '\n') with
  | [] => none
  | _ :: next => some next

/-- Reads what may stand behind an entry: blanks, a comment, and the end of the line. The
result is the text of the next lines. -/
def endLine (s : List Char) : Option (Option (List Char)) :=
  if isComment ((s.dropWhile isBlank).takeWhile (· ≠ '\n')) then some (nextLines? s) else none

/-- Whether a line has no entry. -/
def isIdle (s : List Char) : Bool :=
  match (s.dropWhile isBlank).head? with
  | none => true
  | some c => c = '#' || c = '\n'

/-- Reads one line, which has an entry or not. -/
def readLine (s : List Char) : Option (Option Entry × Option (List Char)) :=
  if isIdle s then (endLine s).map fun next => (none, next)
  else do
    let (entry, rest) ← readEntry (s.dropWhile isBlank)
    let next ← endLine rest
    some (some entry, next)

/-! A line that others follow has at least its line end, so the others are a shorter text. -/

/-- The lines behind the first are shorter than the text. -/
theorem length_nextLines? {s next : List Char} (h : nextLines? s = some next) :
    next.length < s.length := by
  have line := (List.dropWhile_sublist (l := s) (· ≠ '\n')).length_le
  unfold nextLines? at h
  split at h
  · simp at h
  · rename_i heq
    cases h
    rw [heq, List.length_cons] at line
    omega

/-- So are those behind the end of an entry. -/
theorem length_endLine {s next : List Char} (h : endLine s = some (some next)) :
    next.length < s.length := by
  unfold endLine at h
  split at h
  · exact length_nextLines? (Option.some.inj h)
  · simp at h

/-- The text does not grow at an equals sign. -/
theorem length_readEquals {s rest : List Char} (h : readEquals s = some rest) :
    rest.length ≤ s.length := by
  have blanks := (List.dropWhile_sublist (l := s) isBlank).length_le
  unfold readEquals at h
  split at h
  · rename_i after heq
    cases h
    have more := (List.dropWhile_sublist (l := after) isBlank).length_le
    rw [heq, List.length_cons] at blanks
    omega
  · simp at h

/-- Nor at a key. -/
theorem length_readKey {s rest : List Char} {key : String} (h : readKey s = some (key, rest)) :
    rest.length ≤ s.length := by
  unfold readKey at h
  split at h
  · obtain ⟨⟨text, after⟩, htext, heq⟩ := Option.map_eq_some_iff.mp h
    cases heq
    have := Text.length_readLine htext
    simp only [List.length_drop] at this
    omega
  · split at h
    · simp at h
    · cases h
      exact (List.dropWhile_sublist _).length_le

/-- Nor at a value. -/
theorem length_readValue {s rest : List Char} {value : Value}
    (h : readValue s = some (value, rest)) : rest.length ≤ s.length := by
  unfold readValue at h
  split at h
  · obtain ⟨⟨text, after⟩, htext, heq⟩ := Option.map_eq_some_iff.mp h
    cases heq
    have := Text.length_read htext
    simp only [List.length_drop] at this
    omega
  · obtain ⟨i, _, heq⟩ := Option.map_eq_some_iff.mp h
    cases heq
    exact (List.dropWhile_sublist _).length_le

/-- Nor at a whole entry. -/
theorem length_readEntry {s rest : List Char} {entry : Entry}
    (h : readEntry s = some (entry, rest)) : rest.length ≤ s.length := by
  simp only [readEntry, Option.bind_eq_bind, Option.bind_eq_some_iff] at h
  obtain ⟨⟨key, afterKey⟩, hkey, afterEquals, hequals, ⟨value, afterValue⟩, hvalue, heq⟩ := h
  cases heq
  have short := length_readKey hkey
  have shorter := length_readEquals hequals
  have shortest := length_readValue hvalue
  dsimp only at *
  omega

/-- So the lines behind one that was read are shorter. -/
theorem length_readLine {s next : List Char} {given? : Option Entry}
    (h : readLine s = some (given?, some next)) : next.length < s.length := by
  unfold readLine at h
  split at h
  · obtain ⟨_, hend, heq⟩ := Option.map_eq_some_iff.mp h
    cases heq
    exact length_endLine hend
  · simp only [Option.bind_eq_bind, Option.bind_eq_some_iff] at h
    obtain ⟨⟨entry, rest⟩, hentry, _, hend, heq⟩ := h
    cases heq
    dsimp only at hend
    have short := length_readEntry hentry
    have shorter := length_endLine hend
    have blanks := (List.dropWhile_sublist (l := s) isBlank).length_le
    omega

/-- Reads all lines. -/
def readLines (s : List Char) : Option (List Entry) :=
  match _line : readLine s with
  | none => none
  | some (given?, none) => some given?.toList
  | some (given?, some next) => (readLines next).map (given?.toList ++ ·)
termination_by s.length
decreasing_by exact length_readLine _line

/-- Reads a document. A byte order mark at its start is not part of it. -/
def read (source : String) : Option (List Entry) := do
  let body := match source.toList with
    | '\uFEFF' :: body => body
    | body => body
  let entries ← readLines (← unifyLineEnds body)
  if (entries.map Entry.key).Nodup then some entries else none

/-! ### Writing -/

/-- A value as it is written: an integer in decimal, a text within double quotes. -/
def writeValue : Value → List Char
  | .int value => Integer.spell value
  | .text value => Text.quote value.toList

/-- The line of an entry whose key needs no quotes. -/
def writeEntry (entry : Entry) : List Char :=
  entry.key.toList ++ [' ', '=', ' '] ++ writeValue entry.value ++ ['\n']

/-- The document with a line for each entry. -/
def write (entries : List Entry) : String := String.ofList (entries.flatMap writeEntry)

end Document

end ScopeLayout.Toml
