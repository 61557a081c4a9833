import ScopeLayout.Proofs.Declaring
import ScopeLayout.Proofs.ScopeChain

/-!
# `ScopeLayout.Proofs.ClassVariables`: when two class variables share a key

A class variable is kept under one text made of the prefix of the settings, the
name of the class, two underscores and the bare name. Nothing marks where one
part ends, so a class name that goes on with underscores can take over the
beginning of a bare name.

* `Straddles` has the two ways in which this happens: the second class name takes
  over one of the underscores between the parts, or both and more.
* `separated_eq_iff`: two pairs give one text exactly if they are equal or one
  straddles the other. `Unambiguous` class names leave the first possibility only.
* `classVarKey?_eq_iff` says the same of the classes that a list declares, whatever
  the prefix is.
-/

set_option autoImplicit false

namespace ScopeLayout

/-! ### Texts with a separator -/

/-- The pairs of a class name and a bare name give one text although they differ, because the second
class name takes over underscores from between the parts of the first pair. It takes over one, and
so ends in it (`one`), or it takes over both, and then perhaps the beginning of the bare name as
well (`both`). -/
inductive Straddles (name : String) : String → String → String → Prop where
  | one (bare : String) : Straddles name ("_" ++ bare) (name ++ "_") bare
  | both (between bare : String) :
      Straddles name (between ++ "__" ++ bare) (name ++ "__" ++ between) bare

/-- No two underscores stand in the name, and it does not end in one. -/
def Unambiguous (name : String) : Prop :=
  (∀ before behind, name ≠ before ++ "__" ++ behind) ∧ ∀ before, name ≠ before ++ "_"

/-- The longer name of a straddling pair has two underscores together or ends in one. -/
theorem Straddles.not_unambiguous {name bare name' bare' : String}
    (h : Straddles name bare name' bare') : ¬ Unambiguous name' := by
  cases h with
  | one bare' => exact fun unambiguous => unambiguous.2 name rfl
  | both between bare' => exact fun unambiguous => unambiguous.1 name between rfl

/-- Straddling pairs give one text. -/
theorem Straddles.separated_eq {name bare name' bare' : String}
    (h : Straddles name bare name' bare') : name ++ "__" ++ bare = name' ++ "__" ++ bare' := by
  cases h with
  | one bare' =>
    apply String.toList_inj.mp
    simp [String.toList_append]
  | both between bare' => simp only [String.append_assoc]

/-- If the second class name begins with the first one, the pairs are equal or the second straddles
the first. -/
theorem straddles_of_isPrefix {name bare name' bare' : String}
    (longer : name.toList <+: name'.toList) (h : name ++ "__" ++ bare = name' ++ "__" ++ bare') :
    (name = name' ∧ bare = bare') ∨ Straddles name bare name' bare' := by
  obtain ⟨more, hmore⟩ := longer
  obtain rfl : name' = name ++ String.ofList more := by
    apply String.toList_inj.mp
    simp [String.toList_append, hmore]
  have hrest : '_' :: '_' :: bare.toList = more ++ '_' :: '_' :: bare'.toList := by
    rw [← String.toList_inj] at h
    simpa [String.toList_append] using h
  -- What the second name has more takes over none, one or both of the underscores.
  match more, hrest with
  | [], hrest =>
    refine .inl ⟨by simp, String.toList_inj.mp ?_⟩
    simpa using hrest
  | [c], hrest =>
    obtain ⟨rfl, hbare⟩ : '_' = c ∧ bare.toList = '_' :: bare'.toList := by simpa using hrest
    obtain rfl : bare = "_" ++ bare' := by
      apply String.toList_inj.mp
      simpa [String.toList_append] using hbare
    exact .inr (.one bare')
  | c :: d :: between, hrest =>
    obtain ⟨rfl, rfl, hbare⟩ :
        '_' = c ∧ '_' = d ∧ bare.toList = between ++ '_' :: '_' :: bare'.toList := by
      simpa using hrest
    obtain rfl : bare = String.ofList between ++ "__" ++ bare' := by
      apply String.toList_inj.mp
      simpa [String.toList_append] using hbare
    have hname : name ++ String.ofList ('_' :: '_' :: between)
        = name ++ "__" ++ String.ofList between := by
      apply String.toList_inj.mp
      simp [String.toList_append]
    rw [hname]
    exact .inr (.both (String.ofList between) bare')

/-- Two pairs give one text exactly if they are equal or one straddles the other. -/
theorem separated_eq_iff {name bare name' bare' : String} :
    name ++ "__" ++ bare = name' ++ "__" ++ bare' ↔
      (name = name' ∧ bare = bare') ∨ Straddles name bare name' bare'
        ∨ Straddles name' bare' name bare := by
  constructor
  · intro h
    have hfirst : name.toList <+: (name ++ "__" ++ bare).toList := by
      simp [String.toList_append]
    have hsecond : name'.toList <+: (name ++ "__" ++ bare).toList := by
      simp [h, String.toList_append]
    -- Of two beginnings of one text, one is a beginning of the other.
    rcases List.prefix_or_prefix_of_prefix hfirst hsecond with hlonger | hlonger
    · rcases straddles_of_isPrefix hlonger h with hsame | hstraddles
      · exact .inl hsame
      · exact .inr (.inl hstraddles)
    · rcases straddles_of_isPrefix hlonger h.symm with ⟨hname, hbare⟩ | hstraddles
      · exact .inl ⟨hname.symm, hbare.symm⟩
      · exact .inr (.inr hstraddles)
  · rintro (⟨rfl, rfl⟩ | hstraddles | hstraddles)
    · rfl
    · exact hstraddles.separated_eq
    · exact hstraddles.separated_eq.symm

/-! ### Keys of declared classes -/

namespace World

/-- A name with two marks denotes the class variable with this key. -/
theorem resolve_classVar {w : World} {c : ClassId} {bare key : String}
    (hkey : w.classVarKey? c bare = some key) :
    w.resolve (.classBody c) ("@@" ++ bare) = .classVar key := by
  rw [resolve, resolveMember, Spelling.of_eq_classVar_iff.mpr rfl]
  simp only [hkey]

/-- Class variables of classes that one list declares have keys with one prefix, and two of them
have the same key exactly if they are the same variable of the same class or one straddles the
other.

So the key does not always tell the classes apart. It does if no class name has two underscores in
it or one at its end. -/
theorem classVarKey?_eq_iff {w : World} (reachable : w.Reachable) {t : DeclarationsId}
    {name name' : String} {c c' : ClassId} (declared : w.declared? t name = some c)
    (declared' : w.declared? t name' = some c') (bare bare' : String) :
    (∃ first, w.classVarKey? c bare = some (first ++ name ++ "__" ++ bare)
        ∧ w.classVarKey? c' bare' = some (first ++ name' ++ "__" ++ bare'))
    ∧ (w.resolve (.classBody c) ("@@" ++ bare) = w.resolve (.classBody c') ("@@" ++ bare') ↔
        w.classVarKey? c bare = w.classVarKey? c' bare')
    ∧ (w.classVarKey? c bare = w.classVarKey? c' bare' ↔
        (c = c' ∧ bare = bare') ∨ Straddles name bare name' bare'
          ∨ Straddles name' bare' name bare)
    ∧ (Unambiguous name → Unambiguous name' →
        w.classVarKey? c bare = w.classVarKey? c' bare' → c = c' ∧ bare = bare') := by
  obtain ⟨declarations, body, found, hbody, rfl, hglobals⟩ :=
    reachable.built.class_of_declared declared
  obtain ⟨declarations', body', found', hbody', rfl, hglobals'⟩ :=
    reachable.built.class_of_declared declared'
  obtain rfl : declarations = declarations' := Option.some.inj (found.symm.trans found')
  -- Both classes belong to the module level of the list, so their keys have one prefix.
  obtain ⟨globals, _, home, -⟩ := reachable.built.grounded.home hbody
  have home' : w.globalsAt? body'.globals = some globals := by
    rw [hglobals', ← hglobals]
    exact home
  have hkey := classVarKey?_of_found hbody home bare
  have hkey' := classVarKey?_of_found hbody' home' bare'
  have hclass : c = c' ↔ body.name = body'.name := by
    constructor
    · rintro rfl
      rw [Option.some.inj (hbody.symm.trans hbody')]
    · intro hname
      rw [hname] at declared
      exact Option.some.inj (declared.symm.trans declared')
  have hiff : w.classVarKey? c bare = w.classVarKey? c' bare' ↔
      (c = c' ∧ bare = bare') ∨ Straddles body.name bare body'.name bare'
        ∨ Straddles body'.name bare' body.name bare := by
    have hsplit : ∀ first name bare : String,
        first ++ name ++ "__" ++ bare = first ++ (name ++ "__" ++ bare) := by
      intro first name bare
      simp only [String.append_assoc]
    rw [hkey, hkey', Option.some.injEq, hsplit, hsplit, String.append_right_inj, separated_eq_iff,
      hclass]
  refine ⟨⟨_, hkey, hkey'⟩, ?_, hiff, ?_⟩
  · rw [resolve_classVar hkey, resolve_classVar hkey', hkey, hkey', Referent.classVar.injEq,
      Option.some.injEq]
  · intro hname hname' heq
    rcases hiff.mp heq with hsame | hstraddles | hstraddles
    · exact hsame
    · exact absurd hname' hstraddles.not_unambiguous
    · exact absurd hname hstraddles.not_unambiguous

/-- Two classes of one list, of which the name of one begins with that of the other. -/
def nestedNames : World := (World.empty.run [
  .openGlobals .standard, .openDeclarations ⟨0⟩, .declare ⟨0⟩ "A" none,
  .declare ⟨0⟩ "A__B" none]).1

/-- The variables `B__x` of the one class and `x` of the other are kept under one key, and the
variables `x` of both are not. -/
theorem classVarKey?_eq_iff_nestedNames :
    nestedNames.Reachable ∧ nestedNames.declared? ⟨0⟩ "A" = some ⟨0⟩
    ∧ nestedNames.declared? ⟨0⟩ "A__B" = some ⟨1⟩
    ∧ nestedNames.classVarKey? ⟨0⟩ "B__x" = nestedNames.classVarKey? ⟨1⟩ "x"
    ∧ ¬ (Straddles "A" "x" "A__B" "x" ∨ Straddles "A__B" "x" "A" "x") := by
  have hreachable : nestedNames.Reachable := Reachable.empty.run _
  have hfirst : nestedNames.declared? ⟨0⟩ "A" = some ⟨0⟩ := by decide +kernel
  have hsecond : nestedNames.declared? ⟨0⟩ "A__B" = some ⟨1⟩ := by decide +kernel
  refine ⟨hreachable, hfirst, hsecond, ?_, ?_⟩
  · obtain ⟨-, -, hiff, -⟩ := classVarKey?_eq_iff hreachable hfirst hsecond "B__x" "x"
    exact hiff.mpr (.inr (.inl (.both "B" "x")))
  · intro hstraddles
    obtain ⟨-, -, hiff, -⟩ := classVarKey?_eq_iff hreachable hfirst hsecond "x" "x"
    have hkeys : nestedNames.classVarKey? ⟨0⟩ "x" ≠ nestedNames.classVarKey? ⟨1⟩ "x" := by
      decide +kernel
    exact hkeys (hiff.mpr (.inr hstraddles))

/-- The key alone does not tell class variables of different classes apart. -/
theorem not_classVarKey?_injective :
    ¬ ∀ w : World, w.Reachable → ∀ (t : DeclarationsId) (name name' : String) (c c' : ClassId),
      w.declared? t name = some c → w.declared? t name' = some c' → ∀ bare bare' : String,
        w.classVarKey? c bare = w.classVarKey? c' bare' → c = c' ∧ bare = bare' := by
  intro h
  have hkeys : nestedNames.classVarKey? ⟨0⟩ "B__x" = nestedNames.classVarKey? ⟨1⟩ "x" := by
    decide +kernel
  have hsame := h nestedNames (Reachable.empty.run _) ⟨0⟩ "A" "A__B" ⟨0⟩ ⟨1⟩ (by decide +kernel)
    (by decide +kernel) "B__x" "x" hkeys
  exact absurd hsame.1 (by decide)

end World

end ScopeLayout
