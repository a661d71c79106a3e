import BoundView.Proofs.Component.Arriving
import BoundView.Proofs.Component.Presenting

/-!
# Two-way binding

A component is made on a document that any user code has prepared, and from then on there is only plain
user code: writes of keys, and edits by a person. Then whoever edits an element that is bound to a key
has the key in step with the element at once, and all the rest in step with the key: the texts, the count
of scans, and, where bound inputs follow writes, the other elements that are bound to the key.

Main statement: `edit_round_trip`.
-/

namespace BoundView

open BoundView.Dom (Document NodeId)
open BoundView.Interpolation (resolvedText)
open BoundView.World (Honors Idles Orderly Shown)

variable {κ σ : Type}

/-! ## Making the component -/

namespace World

/-- **Rendering a component** presents it. -/
theorem presents_withRendering {w : World κ σ} {note : σ → Prop} {pending : SubscriberId → Nat}
    (hw : w.Orderly note pending []) {id : ComponentId} {t : Template} (hbare : t.Bare)
    (hfault : (w.rendering id t).fault = none) : (w.withRendering id t).Presents id := by
  have hrendered : (w.withRendering id t).isAlive id = true →
      (w.withRendering id t).component id =
        { w.component id with template := some (w.rendering id t).template } ∧
      (w.withRendering id t).document (w.component id).document = (w.rendering id t).document := by
    intro halive
    have hlt : id < w.components.size :=
      Nat.lt_of_lt_of_eq (lt_of_isAlive halive) Array.size_modify
    exact ⟨component_modifyComponent_self (w := w.setDocument _ _) hlt _,
      document_setDocument (hw.document_lt id hlt) _⟩
  constructor
  · intro t' halive ht'
    obtain ⟨hcomponent, hdocument⟩ := hrendered halive
    rw [hcomponent] at ht' ⊢
    cases ht'
    dsimp only
    rw [hdocument]
    exact Template.carries_mount rfl hbare hfault
  · intro t' halive ht' p hp node hnode
    obtain ⟨hcomponent, hdocument⟩ := hrendered halive
    rw [hcomponent] at ht' ⊢
    cases ht'
    dsimp only
    rw [hdocument]
    exact ((Template.mount_displays hbare hfault).1 p hp node hnode).mono fun _ => trivial

end World

namespace Run

/-- A component that was rendered presents itself. -/
theorem shown_renderComponent {note : σ → Prop} {w w' : World κ σ} {id : ComponentId}
    {pending : SubscriberId → Nat} (hw : w.Orderly note pending []) {t : Template} (hbare : t.Bare)
    (hrender : renderComponent id t w = .ok () w') : w'.Shown note id := by
  have hcases := renderComponent_cases w id t w rfl
  have hupheld := upholds_renderComponent id hbare pending w hw
  rw [hrender] at hcases hupheld
  obtain ⟨hfault, traces, rfl⟩ := hcases
  exact ⟨⟨pending, hupheld⟩, { World.presents_withRendering hw hbare hfault with }⟩

section

variable {customs : Customs κ σ} (hidle : customs.Idle)

include hidle

theorem mute_handle (depth : Nat) : Mute Diary.Orderly (customs.handle (depth + 1)) where
  upholds := upholds_handle customs (depth + 1)
  idle run _ hoccasion := idle_handle_succ hidle depth run hoccasion

/-- A plain hook. -/
theorem shown_runHook (depth : Nat) {id other : ComponentId} {hook : Option κ}
    (hplain : ∀ run, hook = some run → (customs run (.hook other)).Plain) :
    Keeps (Shown Diary.Orderly id) (runHook (customs.handle (depth + 2)) other hook) := by
  cases hook with
  | none => exact .pure _
  | some run =>
    refine .bind (shown_modify (fun w => Idles.modifyHost w _) fun _ _ h => ?_) fun _ =>
      shown_run (mute_handle hidle depth) (hplain run rfl)
    exact Diary.Orderly.noteEntry h

/-- **A component that is made** presents itself. -/
theorem shown_mount (depth : Nat) {w w' : World κ (Diary κ σ)} {pending : SubscriberId → Nat}
    (hw : w.Orderly Diary.Orderly pending []) {document : DocumentId} {config : Config κ}
    {id : ComponentId} (hmounted : ∀ run, config.mounted = some run → (customs run (.hook id)).Plain)
    (h : mount (customs.handle (depth + 2)) document config w = .ok (.ok id) w') :
    w'.Shown Diary.Orderly id := by
  obtain ⟨root, w₁, w₂, w₃, ⟨_, e, he⟩, rfl, hcreating, hrender, hmounting, rfl⟩ := mount_stages h
  have hadded := (hw.tell [.mounting config.el]).addComponent (World.lt_of_element he) root config
  have hcreated := Keeps.of_ok (upholds_runHook (upholds_handle customs (depth + 2))
    w.components.size config.created pending) hadded hcreating
  have hrendered := shown_renderComponent (hcreated.tell _) (Template.bare_ofContents _) hrender
  exact ((shown_runHook hidle depth hmounted).of_ok hrendered hmounting).tell _

end

/-! ## Coherence -/

section

variable {customs : Customs κ σ} (hcustoms : customs.Lawful) (depth : Nat) {w : World κ (Diary κ σ)}
  (hw : ∀ id, (w.document id).Coherent)

include hcustoms hw

/-- **Lawful user code leaves all documents coherent.** -/
theorem coherent_left {conduct : Conduct κ σ} (hconduct : conduct.Lawful) (document : DocumentId) :
    ((left (conduct.run (customs.handle depth)) w).document document).Coherent := by
  have hstart : w.Honors (w.host.Follows (Honors (fun _ => True) [])) [] :=
    ⟨Diary.Follows.refl w.host _, hw, fun _ hc => nomatch hc⟩
  exact ((keeps_run (keeps_handle hcustoms depth) hconduct).left hstart).coherent document

/-- So does the making of a component. -/
theorem coherent_mount {id : ComponentId} {document : DocumentId} {config : Config κ}
    {w' : World κ (Diary κ σ)}
    (h : mount (customs.handle depth) document config w = .ok (.ok id) w') (other : DocumentId) :
    (w'.document other).Coherent := by
  have hstart : w.Honors (w.host.Follows (Honors (fun _ => True) [])) [] :=
    ⟨Diary.Follows.refl w.host _, hw, fun _ hc => nomatch hc⟩
  have hdurable := World.durable_honors (κ := κ) (w.host.Follows (Honors (fun _ => True) [])) []
  have hkeeps := keeps_mount hdurable (keeps_handle hcustoms depth) document config
  exact (hkeeps.of_ok hstart h).coherent other

end

end Run

/-! ## A round trip -/

/-- **An edit has gone there and back**: from the element to the key that it is bound to, and from the key
to all that depends on it. -/
structure RoundTrip (w : World κ σ) (id : ComponentId) (t : Template) (node : NodeId) (key : String)
    (text : String) (w' : World κ σ) : Prop where
  /-- The key has the text, and all other keys have their values. -/
  value : w'.values id key = some (.str text)
  others : ∀ k, k ≠ key → w'.values id k = w.values id k
  /-- The component is what it was, and has counted one scan. -/
  component : ∃ holders, w'.component id =
    { w.component id with scans := (w.component id).scans + 1, holders }
  /-- The element has the text. -/
  live : (w'.document (w.component id).document).value node = .ok (some text)
  /-- Every rendered text shows what it resolves to now. -/
  texts : ∀ raw n, Part.text raw (some n) ∈ t.preorder →
    (w'.document (w.component id).document).content n =
      .text (resolvedText (w'.lookup (w.component id).store) (w.component id).options.missingKey raw)
  /-- Every other element that is bound to the key has the text where bound inputs follow writes, and the
  live value that it had where they do not. -/
  bound : ∀ tag attributes n, Part.element tag attributes (some n) ∈ t.preorder →
    (Part.element tag attributes (some n)).modelKey? = some key → n ≠ node →
      (w'.document (w.component id).document).value n =
        if (w.component id).options.syncInputs then .ok (some text)
        else (w.document (w.component id).document).value n

/-- What a write leaves of the live value of an element that is bound to its key. -/
theorem Template.Touches.value_bound {t : Template} {d e : Document (Action κ)} {key text : String}
    {inputs : Bool} {lookup : Interpolation.Lookup} {missing : Interpolation.MissingKey}
    (h : t.Touches key inputs lookup missing text d e) (hhoused : t.Housed d) {tag : String}
    {attributes : Dom.Attributes} {node : NodeId}
    (hp : Part.element tag attributes (some node) ∈ t.preorder)
    (hkey : (Part.element tag attributes (some node)).modelKey? = some key) :
    e.value node = if inputs then .ok (some text) else d.value node := by
  have hlt := (hhoused.seated _ hp node rfl).1
  rw [Document.value_eq_ok (h.links.size.symm ▸ hlt)]
  cases inputs with
  | true =>
    obtain ⟨old, _, hnew⟩ := h.bound rfl tag attributes node hp hkey
    rw [hnew]
    rfl
  | false =>
    have hkept : e.content node = d.content node := by
      apply h.kept node
      · intro raw hraw
        have heq := t.eq_of_rendered hhoused.nodup hraw rfl hp rfl
        cases heq
      · exact fun hfalse => absurd hfalse Bool.false_ne_true
    rw [hkept, if_neg Bool.false_ne_true, Document.value_eq_ok hlt]

/-! ## What a write leaves, where nothing else is written -/

namespace Touched

variable {w v w' : World κ σ} {id : ComponentId} {t : Template} {key : String} {cell : CellId}
  {value : Value} (h : Touched w id t key cell value v) (hidles : v.Idles w')

include h hidles

theorem component_left : ∃ holders, w'.component id =
    { w.component id with scans := (w.component id).scans + 1, holders } := by
  obtain ⟨holders, hcomponent⟩ := hidles.component id
  rw [h.component] at hcomponent
  exact ⟨holders, hcomponent⟩

theorem values_left (hcells : ∀ k other, (w.component id).store.cell? k = some other →
      other < w.cells.size) : w'.values id = overwritten (w.values id) key value := by
  obtain ⟨holders, hcomponent⟩ := h.component_left hidles
  have hkept : w'.value? (w.component id).store = v.value? (w.component id).store := by
    apply hidles.value?
    intro k other hk
    rw [h.cells.1]
    exact hcells k other hk
  unfold World.values
  rw [hcomponent]
  exact hkept.trans h.values

/-- The live value of an element that is bound to the key. -/
theorem value_left (hhoused : t.Housed (w.document (w.component id).document))
    (hdocument : (w.component id).document < w.documents.size) {tag : String}
    {attributes : Dom.Attributes} {node : NodeId}
    (hp : Part.element tag attributes (some node) ∈ t.preorder)
    (hkey : (Part.element tag attributes (some node)).modelKey? = some key) :
    (w'.document (w.component id).document).value node =
      if (w.component id).options.syncInputs then .ok (some value.text)
      else (w.document (w.component id).document).value node := by
  rw [hidles.document _ (h.documents.1.symm ▸ hdocument)]
  exact h.document.value_bound hhoused hp hkey

end Touched

namespace Run

variable {note : σ → Prop} {handle : Handle κ σ} {w : World κ σ} {id : ComponentId} {t : Template}
  {tag : String} {attributes : Dom.Attributes} {node : NodeId} {key : String}

/-- **An edit of a bound element** in a world in which its component presents itself. -/
theorem roundTrip_of_shown (hmute : Mute note handle) (h : w.Shown note id)
    (hcoherent : (w.document (w.component id).document).Coherent) (halive : w.isAlive id = true)
    (ht : (w.component id).template = some t)
    (hpart : Part.element tag attributes (some node) ∈ t.preorder)
    (hkey : (Part.element tag attributes (some node)).modelKey? = some key)
    (hdeclared : (w.component id).store.contains key = true)
    (hsilent : ∀ n ∈ (w.document (w.component id).document).ancestors node,
      ∀ listener ∈ (w.document (w.component id).document).listenersFor n "input",
        ∀ id key, listener.action ≠ .model id key) (text : String) :
    ∃ ran w', edit handle (w.component id).document node text w = .ok ran w' ∧
      RoundTrip w id t node key text w' := by
  obtain ⟨⟨pending, hw⟩, hpresents⟩ := h
  obtain ⟨cell, hcell⟩ := Option.isSome_iff_exists.mp hdeclared
  have hhoused := hw.housed id t ht
  have hlt := hw.document_lt id (World.lt_of_isAlive halive)
  obtain ⟨hnode, hkind⟩ := hhoused.seated _ hpart node rfl
  obtain ⟨old, hold⟩ := eq_element_of_kind hkind
  obtain ⟨first, hfirst, hlisteners⟩ := hpresents.hears t halive ht _ hpart node key rfl hkey
  obtain ⟨changed, d, hset, hrevises⟩ := Document.setValue_spec hnode text
  have hlive : d.liveText node = text := by
    rw [Document.liveText_assign hrevises, hold]
    rfl
  have hedit := edit_written hmute halive rfl hw hset hnode
    (fun _ => hcoherent.ancestor_lt) hlisteners (by rwa [List.append_nil]) hsilent
  obtain ⟨ran, w', hrun, hidles⟩ := hedit.exists_ok rfl
  rw [hlive] at hidles
  have hshown := (shown_edit hmute _ node text).of_ok ⟨⟨pending, hw⟩, hpresents⟩ hrun
  refine ⟨ran, w', hrun, ?_⟩
  -- what is written is the world in which the live value is assigned
  have hassigned : (w.setDocument (w.component id).document d).Orderly note pending [] :=
    hw.setDocument (.setValue hset)
  have htouched := World.touched_written hassigned halive ht hcell (.str text)
  obtain ⟨holders, hcomponent⟩ := htouched.component_left hidles
  have hvalues : w'.values id = overwritten (w.values id) key (.str text) :=
    htouched.values_left hidles (hassigned.cell_lt id)
  have hdocument := World.document_setDocument hlt d
  have hbound : ∀ tag attributes n, Part.element tag attributes (some n) ∈ t.preorder →
      (Part.element tag attributes (some n)).modelKey? = some key →
        (w'.document (w.component id).document).value n =
          if (w.component id).options.syncInputs then .ok (some text) else d.value n := by
    intro tag attributes n hp hkey
    rw [← hdocument]
    exact htouched.value_left hidles (hassigned.housed id t ht)
      (hassigned.document_lt id (World.lt_of_isAlive halive)) hp hkey
  constructor
  · have hstored : w.values id key = some (w.cell cell).value := by
      unfold World.values World.value?
      rw [hcell]
      rfl
    rw [hvalues]
    exact overwritten_of_some hstored _
  · intro k hk
    rw [hvalues, overwritten_of_ne hk]
  · exact ⟨holders, hcomponent⟩
  · rw [hbound tag attributes node hpart hkey, Document.value_assign hrevises hnode hold, ite_self]
  · intro raw n hp
    have hshows := hshown.2.shows
    have hliving : w'.isAlive id = true := by
      rw [hidles.isAlive, World.isAlive_written]
      exact halive
    rw [hcomponent] at hshows
    exact eq_text_of_written (hshows t hliving ht _ hp n rfl).kept
  · intro tag attributes n hp hkey hne
    have hthere := (hhoused.seated _ hp n rfl).1
    rw [hbound tag attributes n hp hkey, Document.value_assign_of_ne hrevises hthere hne]

end Run

/-- Plain user code is lawful. -/
theorem Conduct.Plain.lawful {conduct : Conduct κ σ} (h : conduct.Plain) : conduct.Lawful := by
  induction conduct with
  | done => exact trivial
  | fail f => exact trivial
  | look next ih => exact fun w => ih w (h w)
  | note change next ih => exact ih h
  | ask demand next ih =>
    refine ⟨?_, fun fault => ih fault (h.2 fault)⟩
    cases demand with
    | render document t context node replace => exact h.1.elim
    | _ => exact trivial

/-- **Two-way binding.** Lawful user code prepares a world, whatever it does; a component is made in it;
and from then on there is only plain user code: keys of components are written and live values are
edited. No handler writes, and none of the component's hooks does more than plain code. Then an edit of a
rendered element that is bound to a declared key, with no node above that carries edits as well, comes to
its end, and makes the round trip. -/
theorem edit_round_trip {customs : Customs κ σ} (hcustoms : customs.Lawful) (hidle : customs.Idle)
    (depth : Nat) {before : Conduct κ σ} (hbefore : before.Lawful) (own : σ) {document : DocumentId}
    {config : Config κ} {id : ComponentId}
    (hmounted : ∀ run, config.mounted = some run → (customs run (.hook id)).Plain)
    {made w : World κ (Diary κ σ)}
    (hmade : Run.mount (customs.handle (depth + 2)) document config
      (Run.left (before.run (customs.handle (depth + 2))) (World.ofHost ⟨own, [], []⟩)) =
        .ok (.ok id) made)
    {later : Conduct κ σ} (hlater : later.Plain)
    (hw : w = Run.left (later.run (customs.handle (depth + 2))) made) (halive : w.isAlive id = true)
    {t : Template} (ht : (w.component id).template = some t) {tag : String} {attributes : Dom.Attributes}
    {node : NodeId} (hpart : Part.element tag attributes (some node) ∈ t.preorder) {key : String}
    (hkey : (Part.element tag attributes (some node)).modelKey? = some key)
    (hdeclared : (w.component id).store.contains key = true)
    (houter : ∀ n ∈ (w.document (w.component id).document).ancestors node,
      ∀ listener ∈ (w.document (w.component id).document).listenersFor n "input",
        ∀ other k, listener.action ≠ .model other k) (text : String) :
    ∃ ran w', Run.edit (customs.handle (depth + 2)) (w.component id).document node text w =
        .ok ran w' ∧ RoundTrip w id t node key text w' := by
  have hempty : (⟨own, [], []⟩ : Diary κ σ).Orderly := fun _ hv => absurd hv List.not_mem_nil
  have hprepared := Run.coherent_left hcustoms (depth + 2) (w := World.ofHost ⟨own, [], []⟩)
    (fun _ => Document.coherent_empty) hbefore
  have horderly := Run.Keeps.left (Run.upholds_run (Run.upholds_handle customs (depth + 2)) before _)
    (World.orderly_ofHost hempty)
  have hcoherent := Run.coherent_left hcustoms (depth + 2)
    (Run.coherent_mount hcustoms (depth + 2) hprepared hmade) hlater.lawful
  have hshown := (Run.shown_run (Run.mute_handle hidle (depth + 1)) hlater).left
    (Run.shown_mount hidle depth horderly hmounted hmade)
  rw [← hw] at hcoherent hshown
  exact Run.roundTrip_of_shown (Run.mute_handle hidle (depth + 1)) hshown (hcoherent _) halive ht hpart
    hkey hdeclared houter text

/-- A paragraph with two inputs and an element of another kind, all of which name one key. The first input
calls a method, too. -/
def echoPage : String :=
  "<p id=app><input v-model=k @input=go>{{ k }}<input v-model=k><b v-model=k></b></p>"

/-- A component on it. -/
def echo (sync : Bool) : Config Unit where
  el := "#app"
  data := [("k", .str "old"), ("m", .int 1)]
  methods := [("go", ())]
  created := none
  mounted := none
  options := { syncInputs := sync }

/-- Parses the page. -/
def echoPrepared : Conduct Unit Unit := .ask (.parseDocument echoPage) fun _ => .done

/-- Has a subscriber hear the key, and writes it. -/
def echoLater : Conduct Unit Unit :=
  .ask (.subscribe 0 "k" ()) fun _ => .ask (.write 0 "k" (.str "new")) fun _ => .done

/-- The world once the component is made. -/
def World.withEcho (customs : Customs Unit Unit) (sync : Bool) : World Unit (Diary Unit Unit) :=
  Run.left (Run.mount (customs.handle 2) 0 (echo sync))
    (Run.left (echoPrepared.run (customs.handle 2)) (World.ofHost ⟨(), [], []⟩))

/-- The world in which somebody is about to type. -/
def World.beforeTyping (customs : Customs Unit Unit) (sync : Bool) : World Unit (Diary Unit Unit) :=
  Run.left (echoLater.run (customs.handle 2)) (World.withEcho customs sync)

/-- A method that stops the event. -/
def stopping : Customs Unit Unit
  | _, .method _ event => .ask (.stop event) fun _ => .done
  | _, _ => .done

/-- The first input is edited, be it that bound inputs follow writes or that they do not. -/
theorem edit_round_trip_echo :
    (∃ t ran w', ((World.beforeTyping stopping true).component 0).template = some t ∧
      Run.edit (stopping.handle 2) ((World.beforeTyping stopping true).component 0).document 8 "x"
          (World.beforeTyping stopping true) = .ok ran w' ∧
        RoundTrip (World.beforeTyping stopping true) 0 t 8 "k" "x" w') ∧
    ∃ t ran w', ((World.beforeTyping stopping false).component 0).template = some t ∧
      Run.edit (stopping.handle 2) ((World.beforeTyping stopping false).component 0).document 8 "x"
          (World.beforeTyping stopping false) = .ok ran w' ∧
        RoundTrip (World.beforeTyping stopping false) 0 t 8 "k" "x" w' := by
  have hidle : stopping.Idle := by
    intro run occasion _
    cases occasion with
    | method id event => exact ⟨trivial, fun _ => trivial⟩
    | _ => trivial
  have hcustoms : stopping.Lawful := by
    intro run occasion
    cases occasion with
    | method id event => exact ⟨trivial, fun _ => trivial⟩
    | _ => trivial
  have hlater : echoLater.Plain := ⟨trivial, fun _ => ⟨trivial, fun _ => trivial⟩⟩
  have hfound : ∀ sync, Run.makesComponent (Run.mount (stopping.handle 2) 0 (echo sync)) 0
        (Run.left (echoPrepared.run (stopping.handle 2)) (World.ofHost ⟨(), [], []⟩)) = true ∧
      ((World.beforeTyping stopping sync).component 0).template.any (fun t => decide
        (Part.element "input" [⟨"v-model", "k"⟩, ⟨"@input", "go"⟩] (some 8) ∈ t.preorder)) = true ∧
      (World.beforeTyping stopping sync).isAlive 0 = true ∧
      ((World.beforeTyping stopping sync).component 0).store.contains "k" = true ∧
      ((((World.beforeTyping stopping sync).document
        ((World.beforeTyping stopping sync).component 0).document).ancestors 8).all fun n =>
          (((World.beforeTyping stopping sync).document
            ((World.beforeTyping stopping sync).component 0).document).listenersFor n
              "input").isEmpty) = true := by
    decide +kernel
  have htrip : ∀ sync, ∃ t ran w',
      ((World.beforeTyping stopping sync).component 0).template = some t ∧
        Run.edit (stopping.handle 2) ((World.beforeTyping stopping sync).component 0).document 8 "x"
            (World.beforeTyping stopping sync) = .ok ran w' ∧
          RoundTrip (World.beforeTyping stopping sync) 0 t 8 "k" "x" w' := by
    intro sync
    obtain ⟨hmade, htemplate, halive, hdeclared, houter⟩ := hfound sync
    obtain ⟨t, ht, hpart⟩ := (Option.any_eq_true _ _).mp htemplate
    have hkey : (Part.element "input" [⟨"v-model", "k"⟩, ⟨"@input", "go"⟩] (some 8)).modelKey? =
        some "k" := by decide +kernel
    have hsilent : ∀ n ∈ ((World.beforeTyping stopping sync).document
        ((World.beforeTyping stopping sync).component 0).document).ancestors 8,
        ∀ listener ∈ ((World.beforeTyping stopping sync).document
          ((World.beforeTyping stopping sync).component 0).document).listenersFor n "input",
            ∀ other k, listener.action ≠ .model other k := by
      intro n hn listener hlistener
      rw [List.isEmpty_iff.mp (List.all_eq_true.mp houter n hn)] at hlistener
      cases hlistener
    obtain ⟨ran, w', hrun, hround⟩ := edit_round_trip hcustoms hidle 0
      (show echoPrepared.Lawful from ⟨trivial, fun _ => trivial⟩) () (fun _ he => by cases he)
      (Run.eq_of_makesComponent hmade) hlater rfl halive ht (of_decide_eq_true hpart) hkey hdeclared
      hsilent "x"
    exact ⟨t, ran, w', ht, hrun, hround⟩
  exact ⟨htrip true, htrip false⟩

/-- User code whose method and whose subscribers do this. -/
def meddling (method subscriber : Conduct Unit Unit) : Customs Unit Unit
  | _, .method _ _ => method
  | _, .write _ => subscriber
  | _, _ => .done

/-- What is left when somebody types into a node meanwhile. -/
def World.typed (method subscriber : Conduct Unit Unit) (node : NodeId) : World Unit (Diary Unit Unit) :=
  Run.left (Run.edit ((meddling method subscriber).handle 2) 0 node "x")
    (World.beforeTyping (meddling method subscriber) true)

/-- **Where there is no way back.** An element that takes no input is bound to nothing, whatever key it
names; and user code that writes to no store can keep an edit from its key, or the key from its
dependents: by giving up, by letting go of the component, by an event of its own, by asking for a scan,
and by editing the document. -/
theorem edit_without_return :
    (∃ t, ((World.beforeTyping (meddling .done .done) true).component 0).template = some t ∧
      Part.element "b" [⟨"v-model", "k"⟩] (some 11) ∈ t.preorder) ∧
    (World.typed .done .done 11).values 0 "k" ≠ some (.str "x") ∧
    (World.typed (.fail (.raised "")) .done 8).values 0 "k" ≠ some (.str "x") ∧
    (World.typed (.ask (.drop 0) fun _ => .done) .done 8).values 0 "k" ≠ some (.str "x") ∧
    (World.typed (.ask (.input 0 10 "y") fun _ => .done) .done 8).values 0 "k" ≠ some (.str "x") ∧
    ((World.typed (.ask (.update 0 "k") fun _ => .done) .done 8).component 0).scans ≠
      ((World.beforeTyping (meddling (.ask (.update 0 "k") fun _ => .done) .done) true).component
        0).scans + 1 ∧
    ((World.typed .done (.ask (.edit 0 (.setData 9 "y")) fun _ => .done) 8).document 0).content 9 ≠
      .text (resolvedText ((World.typed .done
        (.ask (.edit 0 (.setData 9 "y")) fun _ => .done) 8).lookup
          ((World.typed .done (.ask (.edit 0 (.setData 9 "y")) fun _ => .done) 8).component 0).store)
        .empty "{{ k }}") := by
  have hfound : ((World.beforeTyping (meddling .done .done) true).component 0).template.any (fun t =>
      decide (Part.element "b" [⟨"v-model", "k"⟩] (some 11) ∈ t.preorder)) = true := by
    decide +kernel
  obtain ⟨t, ht, hpart⟩ := (Option.any_eq_true _ _).mp hfound
  refine ⟨⟨t, ht, of_decide_eq_true hpart⟩, ?_⟩
  decide +kernel

end BoundView
