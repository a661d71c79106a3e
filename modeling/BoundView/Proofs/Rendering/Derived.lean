import BoundView.Proofs.Interpolation.Splicing
import BoundView.Template.Patch

/-!
# What rendered nodes hold

What a part's node holds is a function of the part, the lookup and the policy. It depends on no key
but those of the part: the keys of the markers of a text, the key that an element is bound to.

Main statement: `Part.derived_congr`.
-/

namespace BoundView

open BoundView.Dom (Attributes Content Element NodeId Seed)
open BoundView.Interpolation (Lookup MissingKey resolvedText)

/-! ## What a part's node holds -/

namespace Part

/-- The attributes of a part's node. -/
def nodeAttributes (p : Part) : Attributes :=
  p.plain.foldl (fun as (name, value) => as.set name value) []

/-- **What a part's node holds** under a lookup and a policy. -/
def derived (lookup : Lookup) (missing : MissingKey) (p : Part) : Content :=
  match p with
  | .comment raw => .comment raw
  | .text raw _ => .text (resolvedText lookup missing raw)
  | .element tag _ _ =>
    .element ⟨Text.lowercase tag, p.nodeAttributes, p.modelKey?.map (boundText lookup missing)⟩

/-- Rendering makes just that. -/
theorem content_of_seed? {κ : Type} {context : RenderContext κ} {p : Part} {seed : Seed κ}
    (h : p.seed? context = some seed) : seed.content = p.derived context.lookup context.missing := by
  cases p with
  | comment raw => cases h
  | text raw rendered =>
    cases h
    rfl
  | element tag attributes rendered =>
    cases h
    rfl

theorem seed?_isSome {κ : Type} (context : RenderContext κ) (p : Part) :
    (p.seed? context).isSome = p.isRendered := by
  cases p <;> rfl

theorem seed?_withRendered {κ : Type} (context : RenderContext κ) (p : Part) (node : NodeId) :
    (p.withRendered node).seed? context = p.seed? context := by
  cases p <;> rfl

/-- **Whether a part's node depends on a key**: the node of a text by a marker for it, that of an
element by being bound to it. -/
def dependsOn (key : String) : Part → Prop
  | .text raw _ => key ∈ Interpolation.keys raw
  | .comment _ => False
  | p@(.element ..) => p.modelKey? = some key

/-- **A part's node depends on no other key.** -/
theorem derived_congr {lookup lookup' : Lookup} (missing : MissingKey) {p : Part}
    (h : ∀ key, p.dependsOn key → lookup' key = lookup key) :
    p.derived lookup' missing = p.derived lookup missing := by
  cases p with
  | comment raw => rfl
  | text raw rendered =>
    show Content.text _ = Content.text _
    rw [Interpolation.resolvedText_congr missing h]
  | element tag attributes rendered =>
    unfold derived
    cases hkey : Part.modelKey? (.element tag attributes rendered) with
    | none => rfl
    | some key =>
      unfold boundText
      rw [Option.map_some, Option.map_some, h key hkey]

end Part

end BoundView
