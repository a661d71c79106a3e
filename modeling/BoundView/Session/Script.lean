import BoundView.Config

/-!
# Scripts

A script is a list of labelled actions on documents, events, cells, stores, templates and
components, all of which are known by names. The handlers of a scripted program are scripts: what a
listener, a method, a hook or a subscriber runs.

Nodes and values may be given by expressions. They are evaluated where the action runs, so they may
speak of the event that is being handled, of the component at hand and of the value just written.
-/

namespace BoundView.Script

/-- **A node**, by its number or by the way to it. -/
inductive NodeRef where
  | index (n : Nat)
  /-- The target of the event being handled. -/
  | target
  /-- The node whose listeners are running. -/
  | current
  /-- The root of a component. -/
  | root (component : Option String)
  /-- The node with this index among the matches of a selector. -/
  | query (selector : String) (index : Nat)
  /-- The child with this index. -/
  | child (index : Nat) (of : NodeRef)
  deriving DecidableEq, Repr, Inhabited

/-- **An expression** for a value. -/
inductive Expr where
  | value (v : Value)
  /-- The value of a key of a component; null if it is not declared. -/
  | get (component : Option String) (key : String)
  /-- The integer value of a key, with a number added. -/
  | increment (component : Option String) (key : String) (step : Int64)
  | cell (name : String)
  /-- The value that the subscriber was told. -/
  | argument
  /-- The value of the target of the event being handled. -/
  | targetValue (document : Option String)
  /-- The texts of values, joined. -/
  | join (parts : List Expr)
  deriving Inhabited

/-- **Actions on a document.** -/
inductive DocumentAction where
  | createElement (tag : String)
  | createText (text : Expr)
  | createComment (text : String)
  | createFragment
  | append (parent child : NodeRef)
  | removeChild (parent child : NodeRef)
  | clear (node : NodeRef)
  | setInnerHtml (node : NodeRef) (markup : String)
  | appendMarkup (node : NodeRef) (markup : String)
  | parseFragment (markup : String)
  | setData (node : NodeRef) (text : Expr)
  | setAttribute (node : NodeRef) (name : String) (value : Expr)
  | removeAttribute (node : NodeRef) (name : String)
  | getAttribute (node : NodeRef) (name : String)
  | value (node : NodeRef)
  | setValue (node : NodeRef) (value : Expr)
  | info (node : NodeRef)
  | textContent (node : NodeRef)
  | innerHtml (node : NodeRef)
  | outerHtml (node : NodeRef)
  | descendants (node : NodeRef)
  | contains (ancestor node : NodeRef)
  | count
  | outline
  | query (selector : String)
  | queryAll (selector : String)
  | byId (id : String)
  | matchesNode (selector : String) (node : NodeRef)
  | shown
  /-- Whether another name means the same document. -/
  | same (other : String)
  deriving Inhabited

/-- **Actions with events.** -/
inductive EventAction where
  | unlisten (node : NodeRef) (name : String)
  | listenerCount (node : NodeRef) (type : String)
  | dispatch (type : String) (node : NodeRef) (bubbles : Bool)
  | click (node : NodeRef)
  | input (node : NodeRef) (value : Expr)
  deriving Inhabited

/-- **Actions on cells and stores.** -/
inductive CellAction where
  | make (cell : String) (value : Expr)
  /-- A second name for a cell. -/
  | share (cell other : String)
  | set (cell : String) (value : Expr)
  /-- Adds to an integer, appends to a text, and leaves any other value. -/
  | update (cell : String) (add : Int64) (append : String)
  | info (cell : String)
  | makeStore (store : String) (entries : List (String × Value))
  | getKey (store key : String)
  | setKey (store key : String) (value : Expr)
  | storeInfo (store : String)
  | hasKey (store key : String)
  deriving Inhabited

/-- What rendering a template by itself reads. -/
structure RenderData where
  data : List (String × Value)
  missing : Interpolation.MissingKey
  deriving Inhabited

/-- **Actions on templates.** -/
inductive TemplateAction where
  | compileChildren (template : String) (node : NodeRef)
  | compileNodes (template : String) (nodes : List NodeRef)
  | rows (template : String)
  | copy (template other : String)
  | equal (template other : String)
  /-- Asks an element of a template for an attribute. -/
  | lookUp (template : String) (path : List Nat) (name : String)
  | render (template : String) (node : NodeRef) (data : RenderData) (replace : Bool)
  | affected (template key : String) (inputs : Bool)
  | patch (template key : String) (inputs : Bool) (data : RenderData)
  deriving Inhabited

/-- **Actions on a component.** -/
inductive ComponentAction where
  | get (key : String)
  | set (key : String) (value : Expr)
  | info
  | template
  | html
  | hasMethod (name : String)
  | call (document : Option String) (type : String) (node : NodeRef) (name : String)
  | update (key : String)
  deriving Inhabited

/-- How a condition compares. -/
inductive Comparison where
  | equal
  /-- Less, of two integers. -/
  | less
  deriving DecidableEq, Repr, Inhabited

/-- **An action.** -/
inductive Action where
  | makeDocument (document : String)
  | parseDocument (document markup : String)
  | document (document : Option String) (action : DocumentAction)
  | listen (document : Option String) (node : NodeRef) (type name : String)
      (script : List (String × Action))
  | event (document : Option String) (action : EventAction)
  | stop
  | showEvent
  | when (left : Expr) (comparison : Comparison) (right : Expr) (script : List (String × Action))
  | eval (value : Expr)
  | panic (message : String)
  | dropSubscription (name : String)
  | showSubscription (name : String)
  | cell (action : CellAction)
  | subscribeCell (cell name : String) (script : List (String × Action))
  | subscribeStore (store name key : String) (script : List (String × Action))
  | template (document : Option String) (action : TemplateAction)
  | mount (component : String) (document : Option String) (markup : Option String)
      (config : Config (List (String × Action)))
  | component (component : Option String) (action : ComponentAction)
  | subscribe (component : Option String) (name key : String) (script : List (String × Action))
  | dropComponent (component : Option String)
  deriving Inhabited

end BoundView.Script

namespace BoundView

/-- **A script**: actions with the labels under which they are recorded. -/
abbrev Script := List (String × Script.Action)

end BoundView
