import BoundView.Session.Cells

/-!
# Actions on components and events

A component that an action speaks of is held while the action runs. Making a component unbinds its
name first; afterwards the name means the new component, or nothing when there is none.
-/

namespace BoundView.Session

open BoundView.Script (ComponentAction EventAction)

/-- What is known of a component. -/
def componentInfo (w : SessionWorld) (id : ComponentId) : ComponentInfo :=
  let c := w.component id
  ⟨c.el, c.root, c.store.keys, c.scans, c.options, (c.template.getD .nil).width⟩

/-- The handlers of a component that a script makes under a name. -/
def handlersOf (name : String) (config : Config Script) : Config Callback where
  el := config.el
  data := config.data
  methods := config.methods.map fun (method, script) => (method, .method method name script)
  created := config.created.map (.hook ("created:" ++ name) name)
  mounted := config.mounted.map (.hook ("mounted:" ++ name) name)
  options := config.options

/-- Makes a component, on a new document if there is markup. The new document is part of the
answer. -/
def mountOn (handle : Handle Callback State) (context : Context) (document : Option String)
    (markup : Option String) (config : Config Callback) :
    Act (Except Component.Error (Option DocumentId × ComponentId)) := do
  match markup with
  | some source =>
    let made ← act (Run.mountMarkup handle source config)
    pure (made.map fun (document, id) => (some document, id))
  | none =>
    let document ← documentOf context document
    let made ← act (Run.mount handle document config)
    pure (made.map fun id => (none, id))

/-- **Makes a component** under a name. -/
def performMount (handle : Handle Callback State) (context : Context) (name : String)
    (document : Option String) (markup : Option String) (config : Config Script) : Act Reply := do
  discard (act (unbindComponent name))
  match ← mountOn handle context document markup (handlersOf name config) with
  | .error e =>
    discard (act (unbindComponent name))
    throw (.component e)
  | .ok (made, id) =>
    act (bindComponent name id)
    modify (·.releaseComponent id)
    match made with
    | some document =>
      act (modifyState fun s => { s with documents := s.documents.bind name document })
    | none => pure ()
    pure (.mounted ((← get).component id).root)

/-- **One action on a component.** -/
def performComponent (handle : Handle Callback State) (context : Context)
    (name : Option String) (action : ComponentAction) : Act Reply := do
  let id ← componentOf context name
  onBehalf id do
    match action with
    | .get key => do
      let w ← get
      pure (.value? (w.value? (w.component id).store key))
    | .set key value => do
      let value ← valueOf context value
      ofComponent (Run.write handle id key value)
      pure .unit
    | .info => do pure (.component (componentInfo (← get) id))
    | .template => do pure (.template (((← get).component id).template.getD .nil))
    | .html => do
      let c := (← get).component id
      pure (.text (← act (Run.readDocument c.document (·.innerHtml c.root))))
    | .hasMethod method => do pure (.bool (((← get).component id).method? method).isSome)
    | .call documentName type node method => do
      let document ← documentOf context documentName
      let node ← nodeOf context document node
      let event := (← get).events.size
      modify (·.addEvent (.fresh type node true))
      ofComponent (Run.call handle id method event)
      pure .unit
    | .update key => do pure (.stats (← act (Run.refresh id key)))

/-- **Subscribes a script** to a key of a component. -/
def performSubscribe (context : Context) (component : Option String) (name key : String)
    (script : Script) : Act Reply := do
  let id ← componentOf context component
  let store := ((← get).component id).store
  subscribeKeyScript store key name (some (component.getD context.componentName)) script

/-- **One action with events.** -/
def performEvent (handle : Handle Callback State) (context : Context) (name : Option String)
    (action : EventAction) : Act Reply := do
  let document ← documentOf context name
  match action with
  | .unlisten node listener => do
    let node ← nodeOf context document node
    let id ← find State.listeners listener
    pure (.bool (← act (Run.editDocument document (·.unlisten node id))))
  | .listenerCount node type => do
    let node ← nodeOf context document node
    discard (act (Run.readDocument document (·.node node)))
    pure (.number (((← get).document document).listenersFor node type).length)
  | .dispatch type node bubbles => do
    let node ← nodeOf context document node
    let (event, ran) ← act (Run.fire handle document (.fresh type node bubbles))
    pure (.dispatched ran ((← get).event event))
  | .click node => do
    let node ← nodeOf context document node
    pure (.number (← act (Run.click handle document node)))
  | .input node value => do
    let node ← nodeOf context document node
    let value ← textOf context value
    pure (.number (← act (Run.edit handle document node value)))

/-- **Adds a listener** that runs a script. -/
def performListen (context : Context) (name : Option String) (node : Script.NodeRef)
    (type listener : String) (script : Script) : Act Reply := do
  let document ← documentOf context name
  let node ← nodeOf context document node
  let action : Action Callback := .handler (.listener listener document script)
  let (result, d) := ((← get).document document).listen node type action
  modify (·.setDocument document d)
  let id ← act (Run.ofDocument result)
  act (modifyState fun s => { s with listeners := s.listeners.bind listener id })
  pure .unit

end BoundView.Session
