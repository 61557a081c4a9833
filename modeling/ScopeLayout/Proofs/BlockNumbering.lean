import ScopeLayout.Proofs.Numbering
import ScopeLayout.Proofs.ScopeChain

/-!
# `ScopeLayout.Proofs.BlockNumbering`: which variables share an index

A block numbers its variables from zero, and so does a function its parameters.
The numbers say nothing of the nesting, so two variables of different frames may
have one and the same answer, although both can be seen from one place. This is
the only way in which they can: `resolve_shared_iff`.

* `Locals.rows_ofNames`: a block lists its names in the order of first mention,
  each with its place. So no two names of a block share an index
  (`Locals.find?_ofNames_injective`).
* `Frame.binds_injective`: the same for a frame of either kind, which for a
  function holds because two parameters have two positions.
* `Scope.BindsAt` is the answer of the frames with the number of the frame that
  gives it, and `World.resolve_stored_iff` says that answers with an index are
  of this kind only.
-/

set_option autoImplicit false

namespace ScopeLayout

/-! ### The numbers within a block -/

namespace Locals

/-- One more name is one more request for an index. -/
theorem ofNames_concat (names : List String) (name : String) :
    ofNames (names ++ [name]) = (ofNames names).add name (ofNames names).size := by
  simp only [ofNames, List.foldl_append, List.foldl_cons, List.foldl_nil]

/-- A block lists each name once, in the order of first mention, with its place. -/
theorem rows_ofNames (names : List String) :
    (ofNames names).rows = names.eraseDups.zipIdx := by
  induction names using List.reverseRecOn with
  | nil => rfl
  | append_singleton names name ih =>
    have hknown : name ∈ (ofNames names).names ↔ name ∈ names := by
      rw [Registry.names, ih, List.zipIdx_map_fst, List.mem_eraseDups]
    rw [ofNames_concat, eraseDups_concat]
    by_cases h : name ∈ names
    · obtain ⟨index, hindex⟩ := Registry.contains_eq_true_iff.mp
        (Registry.mem_names_iff.mp (hknown.mpr h))
      rw [Registry.add_of_find? hindex, if_pos h, ih]
    · -- The number of the rows so far is the place of the new name.
      rw [Registry.rows_add (Registry.find?_eq_none_iff.mpr (mt hknown.mp h)), if_neg h,
        List.zipIdx_append, Registry.size, ih]
      simp

/-- The number of variables is the number of different names. -/
theorem size_ofNames (names : List String) : (ofNames names).size = names.eraseDups.length := by
  rw [Registry.size, rows_ofNames, List.length_zipIdx]

/-- The index of a name is its place among the different names. -/
theorem find?_ofNames_eq_some_iff {names : List String} {name : String} {index : Nat} :
    (ofNames names).find? name = some index ↔ names.eraseDups[index]? = some name := by
  rw [← Registry.mem_rows_iff (name, index), rows_ofNames]
  exact List.mk_mem_zipIdx_iff_getElem?

/-- No two names of a block share an index. -/
theorem find?_ofNames_injective {names : List String} {a b : String} {index : Nat}
    (ha : (ofNames names).find? a = some index) (hb : (ofNames names).find? b = some index) :
    a = b := by
  rw [find?_ofNames_eq_some_iff] at ha hb
  exact Option.some.inj (ha.symm.trans hb)

/-- The names of a block are those that have an index in it. -/
theorem find?_ofNames_eq_none_iff {names : List String} {name : String} :
    (ofNames names).find? name = none ↔ name ∉ names := by
  rw [Registry.find?_eq_none_iff, Registry.names, rows_ofNames, List.zipIdx_map_fst,
    List.mem_eraseDups]

/-- An index is in use in a block if it is below the number of its variables. -/
theorem exists_find?_ofNames_iff {names : List String} {index : Nat} :
    (∃ name ∈ names, (ofNames names).find? name = some index)
      ↔ index < (ofNames names).size := by
  rw [size_ofNames]
  constructor
  · rintro ⟨name, -, hindex⟩
    exact (List.getElem?_eq_some_iff.mp (find?_ofNames_eq_some_iff.mp hindex)).1
  · intro hlt
    have hmem : names.eraseDups[index] ∈ names :=
      List.mem_eraseDups.mp (List.getElem_mem hlt)
    exact ⟨_, hmem, find?_ofNames_eq_some_iff.mpr (List.getElem?_eq_getElem hlt)⟩

end Locals

/-! ### The numbers along the way -/

/-- The answer is an index: of a variable in its block, or of a parameter in its list. -/
inductive Referent.Stored : Referent → Prop where
  | localVar (index : Nat) : Stored (.localVar index)
  | argument (position : Nat) : Stored (.argument position)

namespace Frame

/-- The bindings of the frame are numbered by its names. Parameters always are, by position. -/
inductive Numbered : Frame → Prop where
  | parameters (signature : Signature) : Numbered (.parameters signature)
  | locals (names : List String) : Numbered (.locals (.ofNames names))

/-- A numbered frame binds no two names to one index. -/
theorem binds_injective {frame : Frame} (numbered : frame.Numbered) {a b : String} {r : Referent}
    (ha : frame.Binds a r) (hb : frame.Binds b r) : a = b := by
  cases numbered with
  | parameters signature =>
    cases ha with
    | argument placed named _ =>
      cases hb with
      | argument placed' named' _ =>
        obtain rfl := Option.some.inj (placed.symm.trans placed')
        exact named.symm.trans named'
  | locals names =>
    cases ha with
    | localVar listed =>
      cases hb with
      | localVar listed' => exact Locals.find?_ofNames_injective listed listed'

end Frame

namespace Scope

/-- Every block on the way outwards has its variables numbered from zero. -/
def Numbered (s : Scope) : Prop := ∀ frame ∈ s.frames, frame.Numbered

/-- The first frame that binds the name, and what it binds it to. It lies this many frames
outwards. -/
def BindsAt (s : Scope) (name : String) (depth : Nat) (r : Referent) : Prop :=
  ∃ inner frame outer, s.frames = inner ++ frame :: outer ∧ inner.length = depth
    ∧ (∀ f ∈ inner, ∀ r', ¬ f.Binds name r') ∧ frame.Binds name r

/-- A name that is bound at a depth is bound by the frame there. -/
theorem BindsAt.getElem? {s : Scope} {name : String} {depth : Nat} {r : Referent}
    (h : s.BindsAt name depth r) : ∃ frame, s.frames[depth]? = some frame ∧ frame.Binds name r := by
  obtain ⟨inner, frame, outer, hframes, rfl, -, hbinds⟩ := h
  refine ⟨frame, ?_, hbinds⟩
  rw [hframes]
  simp

/-- Two names with one index in one frame are one name. -/
theorem Numbered.eq_of_bindsAt {s : Scope} (numbered : s.Numbered) {a b : String} {depth : Nat}
    {r : Referent} (ha : s.BindsAt a depth r) (hb : s.BindsAt b depth r) : a = b := by
  obtain ⟨frame, hframe, hbinds⟩ := ha.getElem?
  obtain ⟨frame', hframe', hbinds'⟩ := hb.getElem?
  obtain rfl := Option.some.inj (hframe.symm.trans hframe')
  exact Frame.binds_injective (numbered frame (List.mem_of_getElem? hframe)) hbinds hbinds'

end Scope

namespace World

/-- What a name denotes at a module level has no place in a block. -/
theorem not_stored_resolveGlobal (w : World) (g : GlobalsId) (name : String) :
    ¬ (w.resolveGlobal g name).Stored := by
  intro h
  cases found : w.globalsAt? g with
  | none =>
    rw [resolveGlobal, found] at h
    cases h
  | some globals =>
    rw [resolveGlobal_of_found found] at h
    split at h <;> cases h

/-- Neither has what it denotes around a class. -/
theorem not_stored_resolveAround (w : World) (c : ClassId) (name : String) :
    ¬ (w.resolveAround c name).Stored := by
  intro h
  cases found : w.classAt? c with
  | none =>
    rw [resolveAround, found] at h
    cases h
  | some body =>
    rw [resolveAround_of_found found] at h
    exact not_stored_resolveGlobal w body.globals name h

/-- Where the way ends, no answer is an index. -/
theorem not_stored_resolveAtEnd (w : World) (name : String) (e : Outermost) :
    ¬ (w.resolveAtEnd name e).Stored := by
  intro h
  cases e with
  | nothing => cases h
  | globals g => exact not_stored_resolveGlobal w g name h
  | classBody c =>
    -- A class answers with a field or a class variable itself, and leaves all else.
    rw [resolveAtEnd, resolveMember] at h
    cases hspelling : Spelling.of name with
    | field =>
      cases hfield : w.fieldIndex? c name with
      | some slot =>
        simp only [hspelling, hfield] at h
        cases h
      | none =>
        simp only [hspelling, hfield] at h
        exact not_stored_resolveAround w c name h
    | classVar bare =>
      cases hkey : w.classVarKey? c bare with
      | some key =>
        simp only [hspelling, hkey] at h
        cases h
      | none =>
        simp only [hspelling, hkey] at h
        cases h
    | plain =>
      simp only [hspelling] at h
      exact not_stored_resolveAround w c name h

/-- A name denotes an index exactly if a frame binds it to this index. -/
theorem resolve_stored_iff (w : World) (s : Scope) (name : String) {r : Referent}
    (stored : r.Stored) : w.resolve s name = r ↔ ∃ depth, s.BindsAt name depth r := by
  rw [resolve_eq]
  constructor
  · intro h
    cases hfound : s.frames.findSome? (·.binding? name) with
    | some found =>
      rw [hfound] at h
      obtain rfl : found = r := h
      obtain ⟨inner, frame, outer, hframes, hinner, hbinds⟩ :=
        findSome?_binding?_eq_some_iff.mp hfound
      exact ⟨inner.length, inner, frame, outer, hframes, rfl, hinner, hbinds⟩
    | none =>
      rw [hfound] at h
      obtain rfl : w.resolveAtEnd name s.outermost = r := h
      exact absurd stored (not_stored_resolveAtEnd w name s.outermost)
  · rintro ⟨depth, inner, frame, outer, hframes, -, hinner, hbinds⟩
    rw [findSome?_binding?_eq_some_iff.mpr ⟨inner, frame, outer, hframes, hinner, hbinds⟩]
    rfl

/-- Two different names have one index exactly if frames at different places on the way outwards
bind them to it.

In one block, and in one list of parameters, no two names have the same index. But the frames are
numbered without regard to each other. So a variable that is seen through a block shares its index
with one of the block, as soon as the block has enough variables to use that index. -/
theorem resolve_shared_iff (w : World) {s : Scope} (numbered : s.Numbered) {a b : String}
    (different : a ≠ b) :
    (∀ r : Referent, r.Stored → (w.resolve s a = r ∧ w.resolve s b = r ↔
      ∃ k l, k ≠ l ∧ s.BindsAt a k r ∧ s.BindsAt b l r))
    ∧ (∀ frame ∈ s.frames, ∀ r, frame.Binds a r → ¬ frame.Binds b r)
    ∧ ∀ names index, a ∉ names → w.resolve s a = .localVar index →
        w.resolve (.block (.ofNames names) s) a = .localVar index
        ∧ ((∃ c ∈ names, w.resolve (.block (.ofNames names) s) c = .localVar index) ↔
            index < (Locals.ofNames names).size) := by
  refine ⟨?_, ?_, ?_⟩
  · intro r stored
    rw [resolve_stored_iff w s a stored, resolve_stored_iff w s b stored]
    constructor
    · rintro ⟨⟨k, hk⟩, l, hl⟩
      refine ⟨k, l, ?_, hk, hl⟩
      rintro rfl
      exact different (numbered.eq_of_bindsAt hk hl)
    · rintro ⟨k, l, -, hk, hl⟩
      exact ⟨⟨k, hk⟩, l, hl⟩
  · intro frame hframe r ha hb
    exact different (Frame.binds_injective (numbered frame hframe) ha hb)
  · intro names index absent hindex
    refine ⟨?_, ?_⟩
    · rw [resolve, Locals.find?_ofNames_eq_none_iff.mpr absent]
      exact hindex
    · rw [← Locals.exists_find?_ofNames_iff]
      refine exists_congr ?_
      intro c
      refine and_congr_right ?_
      intro hc
      rw [resolve]
      cases hown : (Locals.ofNames names).find? c with
      | some own => simp
      | none =>
        -- The block has an index for each of its names.
        exact absurd hc (Locals.find?_ofNames_eq_none_iff.mp hown)

/-- A block in another one, each with a variable at its first index. -/
def nestedBlocks : Scope := .block (.ofNames ["b"]) (.looseBlock (.ofNames ["a", "b"]))

/-- Both blocks number their names. -/
theorem numbered_nestedBlocks : nestedBlocks.Numbered := by
  intro frame hframe
  rcases List.mem_cons.mp hframe with rfl | hframe
  · exact .locals ["b"]
  · rw [List.mem_singleton.mp hframe]
    exact .locals ["a", "b"]

/-- The variables `b` of the inner block and `a` of the outer one share their index, which lies in
two different frames. -/
theorem resolve_shared_iff_nestedBlocks :
    nestedBlocks.Numbered ∧ "b" ≠ "a" ∧ (Referent.localVar 0).Stored
    ∧ ∃ k l, k ≠ l ∧ nestedBlocks.BindsAt "b" k (.localVar 0)
        ∧ nestedBlocks.BindsAt "a" l (.localVar 0) := by
  have different : "b" ≠ "a" := by decide
  have shared : World.empty.resolve nestedBlocks "b" = .localVar 0
      ∧ World.empty.resolve nestedBlocks "a" = .localVar 0 := by decide +kernel
  obtain ⟨hiff, -, -⟩ := resolve_shared_iff .empty numbered_nestedBlocks different
  exact ⟨numbered_nestedBlocks, different, .localVar 0, (hiff _ (.localVar 0)).mp shared⟩

/-- An index alone does not tell two variables apart that are seen from one place. -/
theorem not_resolve_injective :
    ¬ ∀ (w : World) (s : Scope), s.Numbered → ∀ a b : String, a ≠ b →
      ∀ r : Referent, r.Stored → w.resolve s a = r → w.resolve s b ≠ r := by
  intro h
  have hb : World.empty.resolve nestedBlocks "b" = .localVar 0 := by decide +kernel
  have ha : World.empty.resolve nestedBlocks "a" = .localVar 0 := by decide +kernel
  exact h .empty nestedBlocks numbered_nestedBlocks "b" "a" (by decide) _ (.localVar 0) hb ha

end World

end ScopeLayout
