import BoundView.Session.State

/-!
# Documents, components, nodes and values that actions name

The document is the one that the action names; else that of the component at hand; else the one
that the listener was added to; else the one named `d`. The component is the one that the action
names, else the one at hand, else the one of the default name.
-/

namespace BoundView.Session

open BoundView.Dom (NodeId)
open BoundView.Script (Expr NodeRef)

/-- The document that is meant where none is named. -/
def defaultDocument : String := "d"

/-- **The document that an action means.** -/
def documentOf (context : Context) : Option String → Act DocumentId
  | some name => find State.documents name
  | none => do
    match context.component with
    | some id => pure ((← get).component id).document
    | none =>
      match context.document with
      | some id => pure id
      | none => find State.documents defaultDocument

/-- **The component that an action means.** -/
def componentOf (context : Context) : Option String → Act ComponentId
  | some name => find State.components name
  | none =>
    match context.component with
    | some id => pure id
    | none => find State.components context.componentName

/-- The event at hand. -/
def eventOf (context : Context) : Act Event := do
  match context.event with
  | some id => pure ((← get).event id)
  | none => throw .noNode

/-- A node that may be missing. -/
def required : Option NodeId → Act NodeId
  | some id => pure id
  | none => throw .noNode

/-- A selector. -/
def selectorOf (source : String) : Act Selector := do
  match Selector.parse source with
  | .ok selector => pure selector
  | .error e => throw (.selector e)

/-- **The node that a reference means.** -/
def nodeOf (context : Context) (document : DocumentId) : NodeRef → Act NodeId
  | .index n => pure n
  | .target => do pure (← eventOf context).target
  | .current => do required (← eventOf context).current
  | .root component => do
    let id ← componentOf context component
    pure ((← get).component id).root
  | .query source index => do
    let selector ← selectorOf source
    required (selector.queryAll ((← get).document document))[index]?
  | .child index of => do
    let parent ← nodeOf context document of
    let n ← act (Run.readDocument document (·.node parent))
    required n.children[index]?

/-- The value of a key of a component. -/
def keyOf (context : Context) (component : Option String) (key : String) : Act (Option Value) := do
  let id ← componentOf context component
  let w ← get
  pure (w.value? (w.component id).store key)

/-- The value of the target of the event at hand; null where there is none. -/
def targetValueOf (context : Context) (document : Option String) : Act Value := do
  match context.event with
  | none => pure .null
  | some id =>
    let document ← documentOf context document
    let target := ((← get).event id).target
    let value ← act (Run.readDocument document (·.value target))
    pure ((value.map Value.str).getD .null)

mutual
/-- **The value of an expression.** -/
def valueOf (context : Context) : Expr → Act Value
  | .value v => pure v
  | .get component key => do pure ((← keyOf context component key).getD .null)
  | .increment component key step => do
    pure (((← keyOf context component key).getD .null).plus step)
  | .cell name => do
    let id ← find State.cells name
    pure ((← get).cell id).value
  | .argument => pure (context.argument.getD .null)
  | .targetValue document => targetValueOf context document
  | .join parts => do pure (.str (← textsOf context parts))
/-- The joined texts of expressions. -/
def textsOf (context : Context) : List Expr → Act String
  | [] => pure ""
  | part :: parts => do
    let value ← valueOf context part
    let later ← textsOf context parts
    pure (value.text ++ later)
end

/-- The text of an expression. -/
def textOf (context : Context) (e : Expr) : Act String := do pure (← valueOf context e).text

/-- Nodes, in order. -/
def nodesOf (context : Context) (document : DocumentId) : List NodeRef → Act (List NodeId)
  | [] => pure []
  | ref :: refs => do
    let id ← nodeOf context document ref
    let ids ← nodesOf context document refs
    pure (id :: ids)

end BoundView.Session
