import BoundView.Session.Components
import BoundView.Session.Documents
import BoundView.Session.Templates

/-!
# Running a session

A session runs its steps in order and answers each with its outcome, the record of what ran inside
handlers, the traces, and the markup of the documents that changed. A fault ends the step in which
it arose, not the session; what was done before it stays done.

Handlers run scripts, whose actions may make other handlers run. `fuel` bounds how deep handlers
may be nested.
-/

namespace BoundView.Session

open BoundView.Dom (Document)

/-- A running of scripts. -/
abbrev Runner := Context → Script → SessionRun Unit

/-- Runs a handler's script: first the record that it began, then its actions. -/
def announce (run : Runner) (context : Context) (entry : Entry) (script : Script) : SessionRun Unit := do
  record (.began context.place entry)
  run context script

/-- What a handler of an event is told. -/
def eventEntry (event : EventId) : SessionRun Entry := do
  let e := (← get).event event
  pure (.event e.type e.target e.current)

/-- **Runs a handler of a session.** -/
def handleWith (run : Runner) : Handle Callback State := fun callback occasion => do
  match callback, occasion with
  | .listener name document script, .event event =>
    let context := { Context.top with
      place := "listener:" ++ name, document := some document, event := some event }
    announce run context (← eventEntry event) script
  | .method name component script, .method id event =>
    let context := { Context.top with
      place := "method:" ++ name, component := some id, componentName := component
      event := some event }
    announce run context (← eventEntry event) script
  | .hook place name script, .hook id =>
    bindComponent name id
    let context := { Context.top with place, component := some id, componentName := name }
    announce run context .nothing script
  | .subscriber name component script, .write value =>
    let context := { Context.top with place := "sub:" ++ name, argument := some value }
    match component with
    | none => announce run context (.value value) script
    | some componentName =>
      match (← get).host.components.lookup componentName with
      | none => announce run context (.value value) script
      | some id =>
        let context := { context with component := some id, componentName }
        Run.holding id (announce run context (.value value) script)
  | .recorder model name, .event event =>
    let e := (← get).event event
    record (.received model name e.type e.target)
  | _, _ => pure ()

/-- Whether a comparison holds. -/
def compares (comparison : Script.Comparison) (a b : Value) : Bool :=
  match comparison, a, b with
  | .equal, a, b => a.isEqual b
  | .less, .int m, .int n => m < n
  | .less, _, _ => false

/-- **One action.** -/
def perform (handle : Handle Callback State) (run : Runner) (context : Context)
    (action : Script.Action) : Act Reply := do
  match action with
  | .makeDocument name => do
    act (bindNewDocument name .empty)
    pure .unit
  | .parseDocument name markup => do
    match ← act (Run.parseDocument markup) with
    | .error e => throw (.markup e)
    | .ok id =>
      act (modifyState fun s => { s with documents := s.documents.bind name id })
      pure .unit
  | .document name action => performDocument context name action
  | .listen name node type listener script =>
    performListen context name node type listener script
  | .event name action => performEvent handle context name action
  | .stop => do
    match context.event with
    | none => throw .noNode
    | some id =>
      modify (·.modifyEvent id fun e => { e with stopped := true })
      pure .unit
  | .showEvent => do pure (.event (← eventOf context))
  | .when left comparison right script => do
    let a ← valueOf context left
    let b ← valueOf context right
    let holds := compares comparison a b
    if holds then act (run context script)
    pure (.bool holds)
  | .eval value => do pure (.value (← valueOf context value))
  | .panic message => throwThe Fault (.raised message)
  | .dropSubscription name => do pure (.bool (← act (dropSubscription name)))
  | .showSubscription name => do
    match (← get).host.subscriptions.lookup name with
    | some _ => pure (.text shownSubscription)
    | none => throw .noNode
  | .cell action => performCell handle context action
  | .subscribeCell cell name script => do
    let id ← find State.cells cell
    act (subscribeScript id name none script)
    pure .unit
  | .subscribeStore store name key script => do
    let store ← find State.stores store
    subscribeKeyScript store key name none script
  | .template name action => performTemplate context name action
  | .mount name document markup config => performMount handle context name document markup config
  | .component name action => performComponent handle context name action
  | .subscribe component name key script => performSubscribe context component name key script
  | .dropComponent name => do
    pure (.bool (← act (unbindComponent (name.getD context.componentName))))

/-- **Runs a script**, and records the outcome of each of its actions. -/
def runScript : Nat → Runner
  | 0, _, _ => throw .exhausted
  | fuel + 1, context, script =>
    script.forM fun (label, action) => do
      let run := runScript fuel
      let outcome ← (perform (handleWith run) run context action).run
      record (.ended context.place label outcome)

/-- How deep handlers may be nested. -/
def depth : Nat := 20000

/-! ## Steps -/

/-- **What a step answers.** -/
structure Answer where
  outcome : Except Fault Outcome
  calls : List Call
  traces : List Trace
  /-- The markup of the documents that are new or changed, by name. -/
  html : List (String × String)

/-- The markup of the documents that have a name. -/
def markups (w : SessionWorld) : List (String × String) :=
  w.host.documents.map fun (name, id) =>
    (name, ((w.document id).innerHtml Document.root).toOption.getD "")

/-- The entries that are not among those before. -/
def changes (before after : List (String × String)) : List (String × String) :=
  after.filter fun (name, html) => before.lookup name != some html

/-- **One step**, on a world and the markup of its documents before it. -/
def step (w : SessionWorld) (before : List (String × String)) (action : Script.Action) :
    Answer × SessionWorld × List (String × String) :=
  let w := { w with traces := #[], host := { w.host with calls := #[] } }
  let run := runScript depth
  let (outcome, w) :=
    match (perform (handleWith run) run Context.top action).run.run w with
    | .ok outcome w => (.ok outcome, w)
    | .error fault w => (.error fault, w)
  let after := markups w
  (⟨outcome, w.host.calls.toList, w.traces.toList, changes before after⟩, w, after)

/-- Steps in order. -/
def steps (w : SessionWorld) (before : List (String × String)) : Script → List Answer
  | [] => []
  | (_, action) :: rest =>
    let (answer, w, after) := step w before action
    answer :: steps w after rest

/-- **Runs a session** on a document of the given markup, or on an empty one. -/
def run (markup : Option String) (script : Script) : Except Markup.Error (List Answer) := do
  let d ← match markup with
    | some source => Document.parse source
    | none => .ok .empty
  let start : SessionWorld := World.ofHost State.empty
  let w := { start with
    documents := #[d]
    host := { State.empty with documents := [(defaultDocument, 0)] } }
  pure (steps w [] script)

end BoundView.Session
