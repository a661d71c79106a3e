import BoundView.Options
import BoundView.Value

/-!
# What a component is made from

The selector of its root element, its keys with their first values, its methods, the two hooks of
its life, and its options. The type `κ` stands for whatever the caller runs as a method or a hook.
-/

namespace BoundView

/-- **What a component is made from.** -/
structure Config (κ : Type) where
  /-- The selector of the root element. -/
  el : String
  /-- Keys and first values, in order; of several values of one key the last counts. -/
  data : List (String × Value)
  /-- Methods by name; of several methods of one name the last counts. -/
  methods : List (String × κ)
  /-- Runs before the template is compiled. -/
  created : Option κ
  /-- Runs once the rendered nodes stand under the root. -/
  mounted : Option κ
  options : Options
  deriving Inhabited

namespace Config

/-- Adds the fields of a JSON object to the keys. -/
def withJson {κ : Type} (config : Config κ) (fields : List (String × Json)) : Config κ :=
  { config with data := config.data ++ fields.map fun (key, json) => (key, Value.ofJson json) }

/-- A component's making as diagnostics show it. -/
def shown {κ : Type} (config : Config κ) : String :=
  Text.shownRecord "VmConfig"
    [("el", Text.quoted config.el),
      ("data", Text.shownList (config.data.map fun (key, value) =>
        Text.shownCase "" (Text.quoted key ++ ", " ++ value.shown))),
      ("methods", Text.quotedList (config.methods.map Prod.fst)),
      ("created", Text.shownBool config.created.isSome),
      ("mounted", Text.shownBool config.mounted.isSome),
      ("options", config.options.shown)]

end Config

end BoundView
