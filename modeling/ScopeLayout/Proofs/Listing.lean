import Mathlib
import ScopeLayout.Proofs.Numbering
import ScopeLayout.Referent

/-!
# `ScopeLayout.Proofs.Listing`: what a listing tells

A listing shows what a name denotes as a keyword, one blank and a number or a text.
The text is shown as it is, blanks and keywords of other kinds included, and nothing
is quoted. Still no two referents are shown alike. No keyword has a blank, so the first
blank of a listing is the one behind its keyword, whatever the text holds
(`split_at_blank`). The keyword gives the kind of the referent, and within a kind the
rest gives the number or the text, since no two numbers have one decimal spelling
(`eq_of_keyword_of_shown`). `listing_eq_iff` puts both together.
-/

set_option autoImplicit false

namespace ScopeLayout

namespace Referent

/-- The word with which the listing begins. -/
def keyword : Referent → String
  | .localVar _ => "lvar"
  | .argument _ => "arg"
  | .field _ => "ivar"
  | .global _ => "global"
  | .classVar _ => "classvar"
  | .address _ => "addr"
  | .methodCall _ => "callm"

/-- The number or text that the listing shows. -/
def shown : Referent → String
  | .localVar index => Nat.repr index
  | .argument position => Nat.repr position
  | .field slot => Nat.repr slot
  | .global name => name
  | .classVar key => key
  | .address name => name
  | .methodCall name => name

/-- A listing is a keyword, one blank, and what is shown. -/
theorem listing_eq (r : Referent) : r.listing = r.keyword ++ " " ++ r.shown := by
  cases r <;> rfl

/-- A keyword is one word. -/
theorem blank_not_mem_keyword (r : Referent) : ' ' ∉ r.keyword.toList := by
  cases r <;> simp [keyword]

/-- The first blank of a text is the one behind its first word, so the word and what follows it can
be told from the text. -/
theorem split_at_blank {word word' rest rest' : String} (h : ' ' ∉ word.toList)
    (h' : ' ' ∉ word'.toList) (same : word ++ " " ++ rest = word' ++ " " ++ rest') :
    word = word' ∧ rest = rest' := by
  have hwhole : word.toList ++ ' ' :: rest.toList = word'.toList ++ ' ' :: rest'.toList := by
    rw [← String.toList_inj] at same
    simpa [String.toList_append] using same
  have hword : word.toList = word'.toList := by
    rw [← takeWhile_ne_append h rest.toList, hwhole, takeWhile_ne_append h']
  rw [hword, List.append_cancel_left_eq, List.cons.injEq] at hwhole
  exact ⟨String.toList_inj.mp hword, String.toList_inj.mp hwhole.2⟩

/-- The keyword gives the kind, and what is shown gives the rest. -/
theorem eq_of_keyword_of_shown {r r' : Referent} (hkeyword : r.keyword = r'.keyword)
    (hshown : r.shown = r'.shown) : r = r' := by
  -- Two kinds have two keywords, so only the seven cases of one kind are left.
  cases r <;> cases r' <;> simp [keyword] at hkeyword <;>
    simpa [shown, Nat.repr_inj] using hshown

/-- What a listing shows is known from the listing: two referents are shown alike only if they are
one. -/
theorem listing_eq_iff (r r' : Referent) : r.listing = r'.listing ↔ r = r' := by
  constructor
  · intro h
    rw [listing_eq, listing_eq] at h
    obtain ⟨hkeyword, hshown⟩ :=
      split_at_blank r.blank_not_mem_keyword r'.blank_not_mem_keyword h
    exact eq_of_keyword_of_shown hkeyword hshown
  · intro h
    rw [h]

end Referent

end ScopeLayout
