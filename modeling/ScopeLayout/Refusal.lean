/-!
# `ScopeLayout.Refusal`: why a request is refused

Resolving a name never fails. The few requests that can fail do so for one of
the causes below, and `Refusal.message` is the only place that words them.
-/

set_option autoImplicit false

namespace ScopeLayout

/-- What can be wrong with the settings of a layout. -/
inductive SettingsFault where
  -- The text says no settings. The message is the one of the reader of the text.
  | malformed (message : String)
  | emptyPrefix
deriving DecidableEq, Repr

/-- The causes for which a request is refused. -/
inductive Refusal where
  -- The slot of a name was asked for before the name was allocated.
  | unallocatedSlot (name : String)
  -- A superclass was named that is not declared.
  | undeclaredClass (name : String)
  -- A class was reopened under another superclass than the one it was declared with.
  | superclassMismatch (name declared requested : String)
  -- A field was added to a class whose fields a subclass has already taken over.
  | frozenLayout (className field : String)
  | badSettings (fault : SettingsFault)
deriving DecidableEq, Repr

/-- What is said about a settings fault, after the words that introduce it. -/
def SettingsFault.detail : SettingsFault → String
  | .malformed message => message
  | .emptyPrefix => "class_var_prefix must not be empty"

/-- The wording of a refusal. -/
def Refusal.message : Refusal → String
  | .unallocatedSlot name =>
    "Internal compiler error: no dispatch slot allocated for '" ++ name ++ "'"
  | .undeclaredClass name => "Undefined class: " ++ name
  | .superclassMismatch name declared requested =>
    "Superclass mismatch for class " ++ name ++ ": declared " ++ declared ++ ", got " ++ requested
  | .frozenLayout className field =>
    "Cannot add field " ++ field ++ " to class " ++ className ++
      ": a subclass already fixed its layout"
  | .badSettings fault => "Invalid layout configuration: " ++ fault.detail

end ScopeLayout
