import BoundView.Dom.Traverse

/-!
# Edits

Each edit gives the document after it, or the fault that keeps it from happening; a fault changes
no node. Appending a node takes it away from its former parent; appending a fragment moves the
fragment's children instead of the fragment.
-/

namespace BoundView.Dom

/-- A node to be made: what it holds, and the listeners that it is born with. -/
structure Seed (κ : Type) where
  content : Content
  listeners : List (String × κ)
  deriving DecidableEq, Repr

/-- A node to be made without listeners. -/
def Seed.plain {κ : Type} (content : Content) : Seed κ := ⟨content, []⟩

namespace Document

variable {κ : Type} (d : Document κ)

/-! ## What a node holds -/

/-- Replaces the characters of a text or a comment, and says whether they changed. -/
def setData (id : NodeId) (data : String) : Except Fault (Bool × Document κ) :=
  (d.node id).map fun n =>
    match n.content.data? with
    | some old =>
      if old = data then (false, d)
      else (true, d.modify id fun n => { n with content := n.content.withData data })
    | none => (false, d)

/-- Changes the element of a node, if it is one. -/
def modifyElement (id : NodeId) (f : Element → Element) : Document κ :=
  d.modify id fun n => { n with content := n.content.mapElement f }

/-- Sets an attribute of an element; other nodes ignore it. -/
def setAttribute (id : NodeId) (name value : String) : Except Fault (Document κ) :=
  (d.node id).map fun _ =>
    d.modifyElement id fun e => { e with attributes := e.attributes.set name value }

/-- Removes an attribute, and says whether it was there. -/
def removeAttribute (id : NodeId) (name : String) : Except Fault (Bool × Document κ) :=
  (d.node id).map fun n =>
    ((n.content.attributes.get? name).isSome,
      d.modifyElement id fun e => { e with attributes := e.attributes.remove name })

/-- Assigns the live value of an element, and says whether it changed. -/
def setValue (id : NodeId) (value : String) : Except Fault (Bool × Document κ) :=
  (d.node id).map fun n =>
    match n.content.element? with
    | some e =>
      if e.value = some value then (false, d)
      else (true, d.modifyElement id fun e => { e with value := some value })
    | none => (false, d)

/-- The current value of an element. -/
def value (id : NodeId) : Except Fault (Option String) :=
  (d.node id).map fun n => n.content.element?.bind Element.currentValue?

/-! ## Structure -/

/-- Takes a node away from its parent. -/
def detach (child : NodeId) : Document κ :=
  match d.parent? child with
  | none => d
  | some parent =>
    (d.modify child fun n => { n with parent := none }).modify parent fun n =>
      { n with children := n.children.filter (· != child) }

/-- Gives nodes a parent, without touching its list of children. -/
def adopt (parent : Option NodeId) (ids : List NodeId) : Document κ :=
  ids.foldl (fun d id => d.modify id fun n => { n with parent := parent }) d

/-- Moves the children of a fragment to the end of a node's children. -/
def moveChildren (parent fragment : NodeId) (moved : List NodeId) : Document κ :=
  ((d.modify fragment fun n => { n with children := [] }).adopt (some parent) moved).modify parent
    fun n => { n with children := n.children ++ moved }

/-- Moves a node to the end of a node's children. -/
def moveNode (parent child : NodeId) : Document κ :=
  ((d.detach child).modify child fun n => { n with parent := some parent }).modify parent
    fun n => { n with children := n.children ++ [child] }

/-- **Appends a node** as the last child of another. -/
def append (parent child : NodeId) : Except Fault (Document κ) :=
  match d.node parent with
  | .error f => .error f
  | .ok p =>
    if !p.content.isContainer then .error (.notContainer parent)
    else if parent = child ∨ child ∈ d.ancestors parent then .error (.cycle child parent)
    else
      match d.node child with
      | .error f => .error f
      | .ok c =>
        match c.content with
        | .fragment => .ok (d.moveChildren parent child c.children)
        | _ => .ok (d.moveNode parent child)

/-- **Removes a child**, and says whether it was one. -/
def remove (parent child : NodeId) : Except Fault (Bool × Document κ) :=
  (d.node child).map fun c => if c.parent = some parent then (true, d.detach child) else (false, d)

/-- **Detaches every child** of a node. -/
def clear (id : NodeId) : Except Fault (Document κ) :=
  (d.node id).map fun n =>
    (d.modify id fun n => { n with children := [] }).adopt none n.children

/-! ## Whole forests -/

/-- The listeners of a new node, numbered from `first`. -/
def numbered (first : Nat) : List (String × κ) → List (Listener κ)
  | [] => []
  | (type, action) :: rest => ⟨first, type, action⟩ :: numbered (first + 1) rest

/-- Makes one node of a numbered forest. -/
def pushPlaced (p : Forest.Placed (Seed κ)) : Document κ where
  nodes := d.nodes.push
    ⟨p.label.content, p.parent, p.children, numbered d.nextListener p.label.listeners⟩
  nextListener := d.nextListener + p.label.listeners.length

/-- **Makes the nodes of a forest**, in preorder, as the last children of a node. -/
def plant (parent : NodeId) (seeds : Forest (Seed κ)) : Document κ :=
  let base := d.size
  ((seeds.layout (some parent) base).foldl pushPlaced d).modify parent fun n =>
    { n with children := n.children ++ seeds.tops base }

/-! ## Listeners -/

/-- Adds a listener; the answer is its identifier. An identifier is used up even where there is no
node to add the listener to. -/
def listen (id : NodeId) (type : String) (action : κ) : Except Fault Nat × Document κ :=
  let listener : Listener κ := ⟨d.nextListener, type, action⟩
  ((d.node id).map fun _ => listener.id,
    { d.modify id fun n => { n with listeners := n.listeners ++ [listener] } with
      nextListener := d.nextListener + 1 })

/-- Removes the listener of this identifier from a node, and says whether it was there. -/
def unlisten (id : NodeId) (listener : Nat) : Except Fault (Bool × Document κ) :=
  (d.node id).map fun n =>
    (n.listeners.any (·.id == listener),
      d.modify id fun n => { n with listeners := n.listeners.filter (·.id != listener) })

/-- The listeners of a node for one type of event, oldest first. -/
def listenersFor (id : NodeId) (type : String) : List (Listener κ) :=
  ((d.nodes[id]?).elim [] Node.listeners).filter (·.type == type)

end Document

end BoundView.Dom
