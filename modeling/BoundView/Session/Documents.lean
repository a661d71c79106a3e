import BoundView.Session.Evaluate

/-!
# Actions on documents

Each action reads or edits one document. A fault of the document ends the session's step; a
markup or selector error is the action's outcome.
-/

namespace BoundView.Session

open BoundView.Dom (Content Document NodeId)
open BoundView.Script (DocumentAction)

/-- Reads a document. -/
def reading {α : Type} (document : DocumentId)
    (read : Document (Action Callback) → Except Dom.Fault α) : Act α :=
  act (Run.readDocument document read)

/-- Edits a document, with an answer. -/
def editing {α : Type} (document : DocumentId)
    (edit : Document (Action Callback) → Except Dom.Fault (α × Document (Action Callback))) :
    Act α :=
  act (Run.editDocument document edit)

/-- Edits a document. -/
def changing (document : DocumentId)
    (edit : Document (Action Callback) → Except Dom.Fault (Document (Action Callback))) :
    Act Reply := do
  editing document fun d => (edit d).map fun d => ((), d)
  pure .unit

/-- Makes a node; the answer is its number. -/
def creating (document : DocumentId) (content : Content) : Act Reply := do
  let id := ((← get).document document).size
  modify fun w => w.setDocument document ((w.document document).push content)
  pure (.node? (some id))

/-- An edit that parses markup. -/
def parsing (document : DocumentId) (source : String)
    (edit : Document (Action Callback) → Dom.Document.MarkupResult × Document (Action Callback)) :
    Act Reply := do
  act (Run.tell [.parsing source.utf8ByteSize])
  let (result, d) := edit ((← get).document document)
  modify (·.setDocument document d)
  match ← act (Run.ofDocument result) with
  | .ok () => pure .unit
  | .error e => throw (.markup e)

/-- What is known of a node. -/
def infoOf (d : Document (Action Callback)) (id : NodeId) : Except Dom.Fault NodeInfo :=
  (d.node id).map fun n =>
    ⟨id, n.content, n.content.element?.bind Dom.Element.currentValue?, n.parent, n.children⟩

/-- The nodes below the document node, with the number of nodes above each. -/
def outlineOf {κ : Type} (d : Document κ) : List OutlineRow :=
  (d.descendants Document.root).map fun id => ⟨id, (d.ancestors id).length, d.content id⟩

/-- **One action on a document.** -/
def performDocument (context : Context) (name : Option String) (action : DocumentAction) :
    Act Reply := do
  let document ← documentOf context name
  let node := nodeOf context document
  match action with
  | .createElement tag => creating document (.element (.ofTag tag))
  | .createText text => do creating document (.text (← textOf context text))
  | .createComment text => creating document (.comment text)
  | .createFragment => creating document .fragment
  | .append parent child => do
    let parent ← node parent
    let child ← node child
    changing document (·.append parent child)
  | .removeChild parent child => do
    let parent ← node parent
    let child ← node child
    pure (.bool (← editing document (·.remove parent child)))
  | .clear ref => do
    let id ← node ref
    changing document (·.clear id)
  | .setInnerHtml ref markup => do
    let id ← node ref
    parsing document markup (·.setInnerHtml id markup)
  | .appendMarkup ref markup => do
    let id ← node ref
    parsing document markup (·.appendMarkup id markup)
  | .parseFragment markup => do
    match ← act (Run.parseInto document markup) with
    | .ok id => pure (.node? (some id))
    | .error e => throw (.markup e)
  | .setData ref text => do
    let id ← node ref
    let text ← textOf context text
    pure (.bool (← editing document (·.setData id text)))
  | .setAttribute ref name value => do
    let id ← node ref
    let value ← textOf context value
    changing document (·.setAttribute id name value)
  | .removeAttribute ref name => do
    let id ← node ref
    pure (.bool (← editing document (·.removeAttribute id name)))
  | .getAttribute ref name => do
    let id ← node ref
    let n ← reading document (·.node id)
    pure (.attribute? (n.content.attributes.get? name))
  | .value ref => do
    let id ← node ref
    pure (.text? (← reading document (·.value id)))
  | .setValue ref value => do
    let id ← node ref
    let value ← textOf context value
    pure (.bool (← editing document (·.setValue id value)))
  | .info ref => do
    let id ← node ref
    pure (.info (← reading document (infoOf · id)))
  | .textContent ref => do
    let id ← node ref
    pure (.text (← reading document (·.textContent id)))
  | .innerHtml ref => do
    let id ← node ref
    pure (.text (← reading document (·.innerHtml id)))
  | .outerHtml ref => do
    let id ← node ref
    pure (.text (← reading document (·.outerHtml id)))
  | .descendants ref => do
    let id ← node ref
    discard (reading document (·.node id))
    pure (.nodes (((← get).document document).descendants id))
  | .contains ancestor ref => do
    let ancestor ← node ancestor
    let id ← node ref
    pure (.bool (← reading document (·.contains ancestor id)))
  | .count => do pure (.number ((← get).document document).size)
  | .outline => do pure (.outline (outlineOf ((← get).document document)))
  | .query source => do
    let selector ← selectorOf source
    pure (.node? (selector.query ((← get).document document)))
  | .queryAll source => do
    let selector ← selectorOf source
    pure (.nodes (selector.queryAll ((← get).document document)))
  | .byId id => do pure (.node? (Selector.byId ((← get).document document) id))
  | .matchesNode source ref => do
    let selector ← selectorOf source
    let id ← node ref
    pure (.bool (← reading document fun d => selector.matchesNode d id))
  | .shown => do pure (.text (shownDocument ((← get).document document).size))
  | .same other => do
    let other ← find State.documents other
    pure (.bool (other == document))

end BoundView.Session
