import BoundView.Component.Dispatch
import BoundView.Dom.Markup
import BoundView.Selector.Match

/-!
# Making a component

A component is made on the first element that its selector matches. Its store is declared and
watched, the `created` hook runs, the children of the root are compiled, checked under strict
options, and rendered in their own place; then the `mounted` hook runs.

A wrong selector and a missing root are found before anything happens, a template that strict
options refuse is found before the document is touched.
-/

namespace BoundView

variable {κ σ : Type}

/-- What is wrong with a part: an undeclared key of a text; an unknown method of an element, or
else an undeclared key that it is bound to. -/
def Part.violation? (declared known : String → Bool) (p : Part) : Option Component.Error :=
  match p with
  | .comment _ => none
  | .text .. => (p.keys.find? (!declared ·)).map .undeclaredKey
  | .element .. =>
    match (p.events.map fun (_, method) => Text.trimmed method).find? (!known ·) with
    | some name => some (.unknownMethod name)
    | none => (p.modelKey?.filter (!declared ·)).map .undeclaredKey

/-- **The first thing that is wrong with a template**, in preorder. -/
def Template.violation? (declared known : String → Bool) (t : Template) : Option Component.Error :=
  t.preorder.findSome? (Part.violation? declared known)

/-- The listeners of a component's rendered elements. -/
def Component.binder (id : ComponentId) : Binder (Action κ) where
  method name := .method id (Text.trimmed name)
  model key := .model id key

namespace World

/-- What rendering a component reads. -/
def renderContext (w : World κ σ) (id : ComponentId) : RenderContext (Action κ) where
  lookup := w.lookup (w.component id).store
  missing := (w.component id).options.missingKey
  binder := Component.binder id

/-- Watches one key of a component. -/
def watch (w : World κ σ) (id : ComponentId) (key : String) : World κ σ :=
  match (w.component id).store.cell? key with
  | none => w
  | some cell =>
    let watcher := w.subscribers.size
    (w.subscribe cell (.patch id key)).modifyComponent id fun c =>
      { c with watchers := c.watchers ++ [watcher] }

/-- **Adds a component** that is not compiled yet, held once, every key watched. Its number is the
former count of components. -/
def addComponent (w : World κ σ) (document : DocumentId) (root : Dom.NodeId) (config : Config κ) :
    World κ σ :=
  let id := w.components.size
  let (store, w) := w.makeStore config.data
  let c : Component κ :=
    ⟨document, root, config.el, store, config.methods, none, config.options, 0, [], 1⟩
  store.keys.foldl (fun w key => w.watch id key) { w with components := w.components.push c }

/-- The template of a component's root, as the document is now. -/
def compiled (w : World κ σ) (id : ComponentId) : Template :=
  let c := w.component id
  let d := w.document c.document
  Template.ofContents (d.contents (d.children c.root))

end World

namespace Run

variable (handle : Handle κ σ)

/-- Runs a hook, if there is one. -/
def runHook (id : ComponentId) : Option κ → Run κ σ Unit
  | none => pure ()
  | some run => handle run (.hook id)

/-- **Renders a component's template** in the place of its root's children. -/
def renderComponent (id : ComponentId) (template : Template) : Run κ σ Unit := do
  tell [.materializing]
  let w ← get
  let c := w.component id
  let rendered := template.mount (w.renderContext id) (w.document c.document) c.root
  modify (·.setDocument c.document rendered.document)
  modify (·.modifyComponent id fun c => { c with template := some rendered.template })
  tell rendered.traces
  match rendered.fault with
  | some f => throw (.document f)
  | none => pure ()

/-- The life of a component from its first hook to its last. -/
def bringUp (id : ComponentId) (config : Config κ) : Run κ σ (Except Component.Error Unit) := do
  runHook handle id config.created
  tell [.compiling]
  let template := (← get).compiled id
  let c := (← get).component id
  let known := fun name => (c.method? name).isSome
  let violation? := if c.options.strict then template.violation? c.store.contains known else none
  match violation? with
  | some e => pure (.error e)
  | none =>
    renderComponent id template
    runHook handle id config.mounted
    tell [.mounted c.store.keys.length]
    pure (.ok ())

/-- **Makes a component** on a document. The caller holds the component that is the answer. -/
def mount (document : DocumentId) (config : Config κ) :
    Run κ σ (Except Component.Error ComponentId) := do
  tell [.mounting config.el]
  match Selector.parse config.el with
  | .error e => pure (.error (.invalidSelector e))
  | .ok selector =>
    match selector.query ((← get).document document) with
    | none => pure (.error (.rootNotFound config.el))
    | some root =>
      let id := (← get).components.size
      modify (·.addComponent document root config)
      try
        match ← bringUp handle id config with
        | .ok () => pure (.ok id)
        | .error e =>
          modify (·.releaseComponent id)
          pure (.error e)
      catch f =>
        modify (·.releaseComponent id)
        throw f

/-- Parses markup into a fragment of a document. -/
def parseInto (document : DocumentId) (source : String) :
    Run κ σ (Except Markup.Error Dom.NodeId) := do
  tell [.parsing source.utf8ByteSize]
  let (result, d) := ((← get).document document).parseFragment source
  modify (·.setDocument document d)
  pure result

/-- **A new document from markup**; its number is the answer. -/
def parseDocument (source : String) : Run κ σ (Except Markup.Error DocumentId) := do
  tell [.parsing source.utf8ByteSize]
  match Dom.Document.parse source with
  | .error e => pure (.error e)
  | .ok d =>
    let id := (← get).documents.size
    modify fun w => { w with documents := w.documents.push d }
    pure (.ok id)

/-- **Makes a component** on a new document. -/
def mountMarkup (source : String) (config : Config κ) :
    Run κ σ (Except Component.Error (DocumentId × ComponentId)) := do
  match ← parseDocument source with
  | .error e => pure (.error (.markup e))
  | .ok document => (·.map fun id => (document, id)) <$> mount handle document config

end Run

end BoundView
