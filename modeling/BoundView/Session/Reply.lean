import BoundView.Component.Write
import BoundView.Selector.Match

/-!
# Answers of scripted actions

Every action of a script has an outcome: a reply, or the reason why it did nothing. What runs
inside handlers is recorded as a list of calls.
-/

namespace BoundView.Session

open BoundView.Dom (Attributes NodeId)

/-- **Why an action failed.** -/
inductive Failure where
  /-- A name that means nothing. -/
  | unbound (name : String)
  /-- There is no such node, or no event. -/
  | noNode
  | markup (error : Markup.Error)
  | selector (error : Selector.Error)
  | component (error : Component.Error)
  deriving DecidableEq, Repr

/-- What is known of a node. -/
structure NodeInfo where
  id : NodeId
  content : Dom.Content
  value : Option String
  parent : Option NodeId
  children : List NodeId
  deriving DecidableEq, Repr

/-- One line of a document's outline. -/
structure OutlineRow where
  id : NodeId
  depth : Nat
  content : Dom.Content
  deriving DecidableEq, Repr

/-- What is known of a cell. -/
structure CellInfo where
  value : Value
  version : Nat
  /-- The subscribers that are alive. -/
  live : Nat
  /-- The subscribers that the cell has not dropped yet. -/
  listed : Nat

/-- What is known of a component. -/
structure ComponentInfo where
  el : String
  root : NodeId
  keys : List String
  scans : Nat
  options : Options
  /-- The number of trees of the template. -/
  width : Nat
  deriving DecidableEq, Repr

/-- **What an action answers.** -/
inductive Reply where
  | unit
  | bool (b : Bool)
  | bools (a b : Bool)
  | number (n : Nat)
  | node? (id : Option NodeId)
  | nodes (ids : List NodeId)
  | text (s : String)
  | text? (s : Option String)
  | value (v : Value)
  /-- The value of a key; none if there is no such key. -/
  | value? (v : Option Value)
  /-- The value of an attribute; none if it is not there. -/
  | attribute? (value : Option String)
  | info (i : NodeInfo)
  | outline (rows : List OutlineRow)
  | dispatched (ran : Nat) (event : Event)
  | event (e : Event)
  | cell (i : CellInfo)
  | store (entries : List (String × CellInfo))
  | template (t : Template)
  /-- The attribute, directive and plain attribute of one name. -/
  | lookup (own directive plain : Option String)
  | affected (items : List Affected)
  | stats (s : PatchStats)
  | mounted (root : NodeId)
  | component (i : ComponentInfo)

/-- **The outcome of an action.** -/
abbrev Outcome := Except Failure Reply

/-- What a handler was told when it began. -/
inductive Entry where
  | event (type : String) (target : NodeId) (current : Option NodeId)
  | value (v : Value)
  | nothing

/-- **What happened inside handlers.** -/
inductive Call where
  /-- A handler began. -/
  | began (place : String) (entry : Entry)
  /-- An action of a handler ended. -/
  | ended (place : String) (label : String) (outcome : Outcome)
  /-- A listener of a template that was rendered by itself received an event. -/
  | received (model : Bool) (name : String) (type : String) (target : NodeId)

/-- A cell as diagnostics show it. -/
def CellInfo.shown (i : CellInfo) : String :=
  Text.shownRecord "ReactiveCell"
    [("value", i.value.shown), ("version", toString i.version), ("subscribers", toString i.listed)]

/-- A component as diagnostics show it. -/
def ComponentInfo.shown (i : ComponentInfo) : String :=
  Text.shownPartly "ViewModel"
    [("el", Text.quoted i.el), ("root", Text.shownCase "NodeId" (toString i.root)),
      ("keys", Text.quotedList i.keys), ("scans", toString i.scans)]

/-- A subscription as diagnostics show it. -/
def shownSubscription : String := Text.shownPartly "Subscription" []

/-- A document as diagnostics show it. -/
def shownDocument (size : Nat) : String := Text.shownRecord "Document" [("nodes", toString size)]

end BoundView.Session
