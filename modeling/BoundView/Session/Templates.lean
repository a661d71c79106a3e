import BoundView.Session.Evaluate

/-!
# Actions on templates

Templates that a session compiles, renders and patches by itself, without a component. Listeners
of nodes rendered this way only record that they were reached.
-/

namespace BoundView.Session

open BoundView.Dom (NodeId)
open BoundView.Interpolation (Lookup)
open BoundView.Script (RenderData TemplateAction)

/-- The lookup of data that a script gives. -/
def lookupOf (data : RenderData) : Lookup :=
  Lookup.lastOf (data.data.map fun (key, value) => (key, value.text))

/-- The listeners of nodes that are rendered without a component. -/
def recordingBinder : Binder (Action Callback) where
  method name := .handler (.recorder false name)
  model key := .handler (.recorder true key)

/-- Binds a name to a template. -/
def bindTemplate (name : String) (t : Template) : SessionRun Unit :=
  modifyState fun s => { s with templates := s.templates.bind name t }

/-- Compiles nodes, all of which have to be there. -/
def compileNodes (document : DocumentId) (ids : List NodeId) : SessionRun Template := do
  let d := (← get).document document
  ids.forM fun id => discard (Run.ofDocument (d.node id))
  pure (Template.ofContents (d.contents ids))

/-- **One action on a template.** -/
def performTemplate (context : Context) (documentName : Option String) (action : TemplateAction) :
    Act Reply := do
  match action with
  | .compileChildren name node => do
    let document ← documentOf context documentName
    let node ← nodeOf context document node
    let n ← act (Run.readDocument document (·.node node))
    let t ← act (compileNodes document n.children)
    act (bindTemplate name t)
    pure (.template t)
  | .compileNodes name nodes => do
    let document ← documentOf context documentName
    let ids ← nodesOf context document nodes
    let t ← act (compileNodes document ids)
    act (bindTemplate name t)
    pure (.template t)
  | .rows name => do pure (.template (← find State.templates name))
  | .copy name other => do
    let t ← find State.templates name
    act (bindTemplate other t)
    pure .unit
  | .equal name other => do
    let t ← find State.templates name
    let u ← find State.templates other
    pure (.bool (t == u))
  | .lookUp name path attributeName => do
    let t ← find State.templates name
    match t.at? path with
    | some p@(.element ..) =>
      pure (.lookup (p.attributes.get? attributeName) (p.directives.lookup attributeName)
        (p.plain.lookup attributeName))
    | _ => throw .noNode
  | .render name node data replace => do
    let document ← documentOf context documentName
    let t ← find State.templates name
    let node ← nodeOf context document node
    let renderContext : RenderContext (Action Callback) :=
      ⟨lookupOf data, data.missing, recordingBinder⟩
    let d := (← get).document document
    let rendered :=
      if replace then t.mount renderContext d node else t.materialize renderContext d node
    modify (·.setDocument document rendered.document)
    act (bindTemplate name rendered.template)
    act (Run.tell rendered.traces)
    match rendered.fault with
    | some f => act (Run.ofDocument (.error f))
    | none => pure .unit
  | .affected name key inputs => do
    let t ← find State.templates name
    pure (.affected (t.affected key inputs))
  | .patch name key inputs data => do
    let document ← documentOf context documentName
    let t ← find State.templates name
    let patched :=
      patch (lookupOf data) data.missing ((← get).document document) (t.affected key inputs)
    modify (·.setDocument document patched.document)
    act (Run.tell patched.traces)
    match patched.fault with
    | some f => act (Run.ofDocument (.error f))
    | none => pure (.stats patched.stats)

end BoundView.Session
