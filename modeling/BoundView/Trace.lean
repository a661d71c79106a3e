import BoundView.Dom.Document

/-!
# Traces

What a document and its components tell an observer while they work: the beginning of each larger
activity, each change of a rendered node, and each name that a template or an event could not
resolve. A trace is written as one line, its fields behind its message.
-/

namespace BoundView

open BoundView.Dom (NodeId)

/-- **A trace.** -/
inductive Trace where
  /-- Markup of so many bytes is parsed. -/
  | parsing (bytes : Nat)
  | dispatching (type : String) (target : NodeId)
  | mounting (el : String)
  | compiling
  | materializing
  /-- The rendered nodes of a key are brought up to date. -/
  | updating (key : String)
  | updated (visited changed : Nat)
  | mounted (keys : Nat)
  | patched (node : NodeId)
  | undeclaredMarker (key : String)
  | undeclaredModel (key : String)
  | unknownMethod (method type : String)
  /-- A bound input was edited, but its key takes no writes. -/
  | droppedWrite (reason : String)
  deriving DecidableEq, Repr

/-- **The line of a trace.** -/
def Trace.line : Trace → String
  | parsing bytes => "SPAN markup_parse bytes=" ++ toString bytes
  | dispatching type target => "SPAN dom_dispatch event=" ++ type ++ " target=" ++ toString target
  | mounting el => "SPAN vm_mount el=" ++ el
  | compiling => "SPAN vm_compile"
  | materializing => "SPAN vm_materialize"
  | updating key => "SPAN vm_update key=" ++ key
  | updated visited changed =>
    "DEBUG update scan visited=" ++ toString visited ++ " changed=" ++ toString changed
  | mounted keys => "DEBUG mounted keys=" ++ toString keys
  | patched node => "TRACE patched node=#" ++ toString node
  | undeclaredMarker key => "WARN interpolation marker names an undeclared key key=" ++ key
  | undeclaredModel key => "WARN v-model names an undeclared key key=" ++ key
  | unknownMethod method type =>
    "WARN event names an unknown method method=" ++ method ++ " event=" ++ type
  | droppedWrite reason => "WARN v-model write dropped error=" ++ reason

end BoundView
