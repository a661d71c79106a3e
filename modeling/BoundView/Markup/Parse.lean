import BoundView.Forest
import BoundView.Markup.Token

/-!
# Parsing: tokens to a forest

Tokens nest by a stack of open elements. An opening tag goes onto the stack, a closing tag takes
the innermost element off it and must name that element; elements still open at the end close
there. A closing tag of a void element means nothing.

`Builder` is the stack together with what has been built: the nodes inside the innermost open
element and, for each open element, the nodes before it. What a failed parse has built stays
available, because a document keeps the nodes that were made before the failure.
-/

namespace BoundView.Markup

open BoundView.Dom (Attributes Content Element)

/-- The forest of one kind of tree: nodes with their content. -/
abbrev Nodes := Forest Content

/-- An open element, and the nodes before it under the same parent. -/
structure Open where
  element : Element
  before : Nodes
  deriving DecidableEq, Repr

/-- **A tree under construction.** -/
structure Builder where
  /-- The open elements, innermost first. -/
  stack : List Open
  /-- The nodes inside the innermost open element. -/
  inner : Nodes
  deriving DecidableEq, Repr

namespace Builder

/-- Nothing read yet. -/
def empty : Builder := ⟨[], .nil⟩

/-- Adds nodes inside the innermost open element. -/
def add (b : Builder) (nodes : Nodes) : Builder := { b with inner := b.inner ++ nodes }

/-- Opens an element. -/
def push (b : Builder) (element : Element) : Builder := ⟨⟨element, b.inner⟩ :: b.stack, .nil⟩

/-- The nodes of the whole source when every open element closes now. -/
def close : List Open → Nodes → Nodes
  | [], inner => inner
  | o :: stack, inner => close stack (o.before ++ .node (.element o.element) inner .nil)

/-- **The nodes built**, every open element closed. -/
def nodes (b : Builder) : Nodes := close b.stack b.inner

/-- The content of an element as a forest: one text, or nothing. -/
def contentOf (content : List Char) : Nodes :=
  if content.isEmpty then .nil else .single (.text (String.ofList content))

/-- **One token.** -/
def step (b : Builder) : Token → Except Error Builder
  | .text raw => .ok (b.add (.single (.text (String.ofList (decode raw)))))
  | .comment body => .ok (b.add (.single (.comment (String.ofList body))))
  | .opening tag attributes => .ok (b.push ⟨tag, attributes, none⟩)
  | .leaf tag attributes content =>
    .ok (b.add (.node (.element ⟨tag, attributes, none⟩) (contentOf content) .nil))
  | .closing tag offset =>
    if isVoid tag then .ok b
    else
      match b.stack with
      | [] => .error (.unexpectedClosing tag offset)
      | o :: stack =>
        if o.element.tag = tag then
          .ok ⟨stack, o.before ++ .node (.element o.element) b.inner .nil⟩
        else .error (.mismatchedClosing o.element.tag tag offset)

/-- **All tokens**, up to the first that does not fit. -/
def run (b : Builder) : List Token → Builder × Option Error
  | [] => (b, none)
  | t :: ts =>
    match b.step t with
    | .ok b => b.run ts
    | .error e => (b, some e)

/-- **What each token keeps, all tokens keep**, up to the first that does not fit. -/
theorem run_keeps {P : Builder → Prop} {Q : Token → Prop}
    (hstep : ∀ b t b', P b → Q t → b.step t = .ok b' → P b') {b : Builder} (hb : P b)
    {ts : List Token} (hts : ∀ t ∈ ts, Q t) : P (b.run ts).1 := by
  induction ts generalizing b with
  | nil => exact hb
  | cons t ts ih =>
    obtain ⟨ht, hrest⟩ := List.forall_mem_cons.mp hts
    unfold run
    cases heq : b.step t with
    | ok b' => exact ih (hstep b t b' hb ht heq) hrest
    | error e => exact hb

end Builder

/-- **The outcome of parsing.** -/
structure Parsed where
  /-- The nodes made, each under its parent. -/
  nodes : Nodes
  /-- The element that was left without a parent. -/
  orphan : Option Element
  error : Option Error
  deriving DecidableEq, Repr

/-- **Parses a source.** A token that does not fit ends the parse before anything behind it is
read. -/
def parse (source : List Char) : Parsed :=
  let lexed := lex (Cursor.start source)
  match Builder.empty.run lexed.tokens with
  | (b, some e) => ⟨b.nodes, none, some e⟩
  | (b, none) =>
    match lexed.failure with
    | some f => ⟨b.nodes, f.orphan, some f.error⟩
    | none => ⟨b.nodes, none, none⟩

/-- **The nodes of a parse** are those that its tokens build, however it ends. -/
theorem nodes_parse (source : List Char) :
    (parse source).nodes = (Builder.empty.run (lex (Cursor.start source)).tokens).1.nodes := by
  unfold parse
  dsimp only
  split
  · rename_i heq
    rw [heq]
  · rename_i heq
    rw [heq]
    split <;> rfl

/-- An element is left over only by a failure to read. -/
theorem exists_failure_of_mem_orphan {source : List Char} {e : Element}
    (h : e ∈ (parse source).orphan) :
    ∃ f, (lex (Cursor.start source)).failure = some f ∧ e ∈ f.orphan := by
  unfold parse at h
  dsimp only at h
  split at h
  · cases h
  · split at h
    · rename_i f hf
      exact ⟨f, hf, h⟩
    · cases h

/-- **A source parses** when all of it is read and every token is taken. -/
theorem parse_eq_of_run {source : List Char} {b : Builder}
    (hrun : Builder.empty.run (lex (Cursor.start source)).tokens = (b, none))
    (hfailure : (lex (Cursor.start source)).failure = none) :
    parse source = ⟨b.nodes, none, none⟩ := by
  unfold parse
  dsimp only
  rw [hrun, hfailure]

/-- A source that parses leaves nothing without a parent. -/
theorem parse_eq_of_error {source : List Char} (h : (parse source).error = none) :
    parse source = ⟨(parse source).nodes, none, none⟩ := by
  revert h
  unfold parse
  dsimp only
  split
  · exact fun h => nomatch h
  · split
    · exact fun h => nomatch h
    · exact fun _ => rfl

/-- The nodes of a source that parses. -/
def parse? (source : List Char) : Except Error Nodes :=
  let parsed := parse source
  match parsed.error with
  | some e => .error e
  | none => .ok parsed.nodes

end BoundView.Markup
