import Orchestration.Proofs.DefaultValues
import Orchestration.Proofs.Registrations
import Orchestration.Proofs.Scanning
import Orchestration.Tools.Run

/-!
# Two ways to the memory

The tools and the functions of the kernel work on one memory: both put the same questions to it, in words of their own.
They part over the names of collections. A tool takes the blanks off a name that it is given, a function leaves them
on, and neither takes them off the name that the configuration has for calls that give none.

* `Padded` — a name with blanks around it.
* `FrontEnd.collection` — the collection that a front end means, and `FrontEnd.collection_eq_iff`, when both mean one.
* `FrontEnd.collection_again_iff` — when the name that a tool comes back with means that collection again.
* `FrontEnd.Saves`, `FrontEnd.Removes`, `FrontEnd.Recalls` — the calls of a front end.
* `FrontEnd.Saves.asks`, `FrontEnd.Removes.asks`, `FrontEnd.Recalls.asks` — each asks the memory a question.
-/

namespace Orchestration

open Memory Plugins Text

/-! ### Names -/

/-- Blanks stand around the name, which is more than blanks. -/
def Padded (name : String) : Prop := isBlankText name = false ∧ trim name ≠ name

theorem isEmpty_trim (s : String) : (trim s).isEmpty = isBlankText s := by
  rw [Bool.eq_iff_iff, String.isEmpty_iff, trim, String.ofList_eq_empty_iff, trimChars_eq_nil_iff, isBlankText,
    List.all_eq_true]

/-- A name that is trimmed has no blanks around it. -/
theorem not_padded_trim (name : String) : ¬Padded (trim name) := fun h => h.2 (trim_trim name)

/-- What a call gives, if it is more than blanks. -/
def given? (requested : Option String) : Option String := requested.filter (!isBlankText ·)

theorem given?_of_blank {name : String} (h : isBlankText name = true) : given? (some name) = none := by
  rw [given?, Option.filter_some, h]
  rfl

theorem given?_of_text {name : String} (h : isBlankText name = false) : given? (some name) = some name := by
  rw [given?, Option.filter_some, h]
  rfl

theorem given?_eq_some_iff {requested : Option String} {name : String} :
    given? requested = some name ↔ requested = some name ∧ isBlankText name = false := by
  rw [given?, Option.filter_eq_some_iff, Bool.not_eq_true']

/-- A front end of the memory. -/
inductive FrontEnd where
  /-- the tools -/
  | tools
  /-- the functions of the kernel -/
  | functions

namespace FrontEnd

variable {c : Config} {requested : Option String}

/-- The collection that a front end means by what a call asks for. -/
def collection (c : Config) (requested : Option String) : FrontEnd → String
  | .tools => toolCollection c requested
  | .functions => (given? requested).getD c.storage.defaultCollection

/-- A tool trims what it is given. -/
theorem toolCollection_eq (c : Config) (requested : Option String) :
    toolCollection c requested = ((given? requested).map trim).getD c.storage.defaultCollection := by
  cases requested with
  | none => rfl
  | some name =>
    rw [toolCollection, Option.map_some, Option.filter_some, isEmpty_trim]
    cases hblank : isBlankText name with
    | true => simp [given?_of_blank hblank]
    | false => simp [given?_of_text hblank]

/-- **The front ends mean one collection** unless a call gives a name with blanks around it. -/
theorem collection_eq_iff :
    tools.collection c requested = functions.collection c requested ↔ ∀ name ∈ requested, ¬Padded name := by
  rw [collection, collection, toolCollection_eq]
  cases requested with
  | none => simp [given?]
  | some name =>
    cases hblank : isBlankText name with
    | true => simp [given?_of_blank hblank, Padded, hblank]
    | false => simp [given?_of_text hblank, Padded, hblank]

/-- A name that a tool is given means the collection of that name, but for one with blanks around it. -/
theorem toolCollection_some_iff {name : String} (h : isBlankText name = true → name = c.storage.defaultCollection) :
    toolCollection c (some name) = name ↔ ¬Padded name := by
  rw [toolCollection_eq]
  cases hblank : isBlankText name with
  | true => simp [given?_of_blank hblank, Padded, hblank, ← h hblank]
  | false => simp [given?_of_text hblank, Padded, hblank]

/-- **The name that a tool comes back with** means the same collection again, unless it is that of the configuration and
has blanks around it. -/
theorem collection_again_iff :
    tools.collection c (some (tools.collection c requested)) = tools.collection c requested ↔
      (∃ name ∈ requested, isBlankText name = false) ∨ ¬Padded c.storage.defaultCollection := by
  have htools (asked : Option String) : tools.collection c asked = toolCollection c asked := rfl
  have hgiven : (∃ name ∈ requested, isBlankText name = false) ↔ (given? requested).isSome := by
    simp only [Option.isSome_iff_exists, given?_eq_some_iff, Option.mem_def]
  rw [htools, htools, hgiven, toolCollection_eq c requested]
  cases hname : given? requested with
  | none => simp [toolCollection_some_iff]
  | some name =>
    have htrimmed : isBlankText (trim name) = false := by
      rw [← isEmpty_trim, trim_trim, isEmpty_trim, (given?_eq_some_iff.mp hname).2]
    simp [toolCollection_some_iff, htrimmed, not_padded_trim]

end FrontEnd

/-! ### Effects and their failures -/

namespace Effect

variable {ε ε' ε'' α β : Type}

/-- The failures of a sequence are those of its parts. -/
theorem mapError_bind (e : Effect ε α) (f : α → Effect ε β) (word : ε → ε') :
    (e >>= f).mapError word = e.mapError word >>= fun value => (f value).mapError word := by
  have hrun : (e.run >>= ExceptT.bindCont f) >>= (fun outcome => pure (outcome.mapError word)) =
      (e.run >>= fun outcome => pure (outcome.mapError word)) >>=
        ExceptT.bindCont fun value => (f value).mapError word := by
    rw [Program.bind_assoc, Program.bind_assoc]
    refine bind_congr fun outcome => ?_
    cases outcome <;> rfl
  exact hrun

theorem mapError_mapError (e : Effect ε α) (first : ε → ε') (second : ε' → ε'') :
    (e.mapError first).mapError second = e.mapError (second ∘ first) := by
  have hrun : (e.run >>= fun outcome => pure (outcome.mapError first)) >>=
        (fun outcome => pure (outcome.mapError second)) =
      e.run >>= fun outcome => (pure (outcome.mapError (second ∘ first)) : Program Outside _) := by
    rw [Program.bind_assoc]
    refine bind_congr fun outcome => ?_
    cases outcome <;> rfl
  exact hrun

end Effect

/-! ### The functions of the kernel -/

/-- The names of the functions and their parameters are spelled small. -/
theorem lower_of_small {name : String}
    (h : name ∈ ["recall", "save", "remove", "input", "collection", "relevance", "limit", "key"]) :
    lower name = name := by
  revert name
  decide

/-- **Functions with names of their own** are all found once they are imported into a plugin. -/
theorem find_importPlugin {k : Kernel} {functions : List Function} {f : Function} {text plugin : String}
    (hnames : (functions.map fun f => lower f.view.name).Nodup) (hf : f ∈ functions) (hplugin : plugin ≠ "")
    (hsplit : splitQualified text = (plugin, f.view.name)) :
    (k.importPlugin plugin functions).registry.find text = .ok (f.inPlugin plugin) := by
  rw [Registry.find_eq_ok_iff, Kernel.registry_importPlugin, hsplit]
  induction functions using List.reverseRecOn with
  | nil => cases hf
  | append_singleton functions g ih =>
    rw [List.foldl_append, List.foldl_cons, List.foldl_nil, Registry.get?_add _ ⟨plugin, g⟩]
    rw [List.map_append, List.nodup_append] at hnames
    obtain ⟨hbefore, -, hapart⟩ := hnames
    rcases List.mem_append.mp hf with hf | hf
    · have hother : lower f.view.name ≠ lower g.view.name :=
        hapart _ (List.mem_map_of_mem hf) _ List.mem_cons_self
      rw [if_neg fun h => hother h.2.symm]
      exact ih hbefore hf
    · obtain rfl := List.mem_singleton.mp hf
      rw [if_pos ⟨rfl, rfl⟩, Registration.held, Registry.pluginOrGlobal_of_ne_empty hplugin]

/-- The function works as the handler does, and of what names a record only the collection has a default. -/
structure Function.Handles (d : MemoryDefaults) (handler : Variables → Effect Failure String) (f : Function) :
    Prop where
  /-- it works as the handler does -/
  handler : f.handler = handler
  /-- the collection has a default -/
  collection : defaultsUnder f.view.parameters "collection" = [d.collection]
  /-- the input has none -/
  input : defaultsUnder f.view.parameters "input" = []
  /-- the key has none -/
  key : defaultsUnder f.view.parameters "key" = []

/-- **The functions on memory** are those that are found under their names. -/
theorem handles_of_find {k : Kernel} {m : Semantic} {d : MemoryDefaults} {text : String}
    {handler : Variables → Effect Failure String} {f : Function}
    (h : (text, handler) ∈
      [("memory.recall", recollect m d), ("memory.save", save m d), ("memory.remove", forget m d)])
    (hfind : (k.importPlugin "memory" (memoryFunctions m d)).registry.find text = .ok f) : f.Handles d handler := by
  have hnames : ((memoryFunctions m d).map fun f => lower f.view.name).Nodup := by
    simp [memoryFunctions, Function.native, lower_of_small]
  have hfound {g : Function} (hg : g ∈ memoryFunctions m d) (hsplit : splitQualified text = ("memory", g.view.name)) :
      g.inPlugin "memory" = f :=
    Except.ok.inj ((find_importPlugin hnames hg (by decide) hsplit).symm.trans hfind)
  simp only [List.mem_cons, Prod.mk.injEq, List.not_mem_nil, or_false] at h
  rcases h with ⟨rfl, rfl⟩ | ⟨rfl, rfl⟩ | ⟨rfl, rfl⟩
  · obtain rfl := hfound List.mem_cons_self
      (show splitQualified "memory.recall" = ("memory", "recall") by decide)
    constructor <;> simp [Function.inPlugin, Function.native, defaultsUnder, lower_of_small]
  · obtain rfl := hfound (List.mem_cons_of_mem _ List.mem_cons_self)
      (show splitQualified "memory.save" = ("memory", "save") by decide)
    constructor <;> simp [Function.inPlugin, Function.native, defaultsUnder, lower_of_small]
  · obtain rfl := hfound (List.mem_cons_of_mem _ (List.mem_cons_of_mem _ List.mem_cons_self))
      (show splitQualified "memory.remove" = ("memory", "remove") by decide)
    constructor <;> simp [Function.inPlugin, Function.native, defaultsUnder, lower_of_small]

section Variables

variable {parameters : List Parameter} {d : MemoryDefaults} {v : Variables} {name text : String}

/-- A variable that goes by no parameter with a default is left as it is. -/
theorem get?_fillDefaults (hname : lower name = name) (hnone : defaultsUnder parameters name = []) :
    (fillDefaults parameters v).get? name = v.get? name := by
  rw [Variables.get?, held_fillDefaults, hname, hnone, List.foldl_nil, Variables.get?, hname]

/-- **A function means the collection** that it is given, as it stands. -/
theorem collectionOf_fillDefaults (h : defaultsUnder parameters "collection" = [d.collection]) :
    collectionOf d (fillDefaults parameters v) = (given? (v.get? "collection")).getD d.collection := by
  have hname : lower "collection" = "collection" := lower_of_small (by decide)
  have hnamed (name : String) :
      (if isBlankText name then d.collection else name) = (given? (some name)).getD d.collection := by
    cases hblank : isBlankText name with
    | true => simp [given?_of_blank hblank]
    | false => simp [given?_of_text hblank]
  have hdefault : (given? (some d.collection)).getD d.collection = d.collection := by
    rw [← hnamed, ite_self]
  rw [collectionOf, Variables.get?, held_fillDefaults, hname, h, List.foldl_cons, List.foldl_nil, Variables.get?, hname]
  cases hgiven : v.held.get? "collection" with
  | none => exact (hnamed _).trans hdefault
  | some name =>
    by_cases hempty : name = ""
    · subst hempty
      exact (hnamed _).trans hdefault
    · rw [supply_of_text hempty]
      exact hnamed name

/-- **What the handler is called with**: input, key and collection as the call gives them, or the default collection. -/
theorem Function.Handles.invoke {handler : Variables → Effect Failure String} {f : Function} (h : f.Handles d handler)
    (v : Variables) :
    let filled := fillDefaults f.view.parameters v
    f.invoke v = handler filled ∧ filled.get? "input" = v.get? "input" ∧ filled.get? "key" = v.get? "key" ∧
      collectionOf d filled = (given? (v.get? "collection")).getD d.collection := by
  refine ⟨congrFun h.handler _, ?_, ?_, collectionOf_fillDefaults h.collection⟩
  · exact get?_fillDefaults (lower_of_small (by decide)) h.input
  · exact get?_fillDefaults (lower_of_small (by decide)) h.key

theorem requiredText_eq (h : v.get? name = some text) (htext : isBlankText text = false) :
    requiredText v name = pure text := by
  simp [requiredText, h, htext]

theorem requiredText_of_missing (h : given? (v.get? name) = none) :
    requiredText v name = throw (KernelError.invalidArgument name "must not be empty" : Failure) := by
  have hblank : isBlankText ((v.get? name).getD "") = true := by
    cases htext : v.get? name with
    | none => rfl
    | some text =>
      rw [htext, given?, Option.filter_some] at h
      simpa using h
  simp [requiredText, hblank]

end Variables

/-! ### The calls of a front end -/

namespace FrontEnd

/-- The key that a record is to be saved under: the tools choose one themselves if they are given none. -/
def chosen (key : Option String) : FrontEnd → Effect String String
  | .tools => ToolEffect.keyOr key
  | .functions =>
    match given? key with
    | some key => pure key
    | none => throw (KernelError.invalidArgument "key" "must not be empty" : Failure).report

/-- A tool keeps to a key that is more than blanks. -/
theorem keyOr_eq (key : Option String) : ToolEffect.keyOr key =
    match given? key with
    | some key => pure key
    | none => Effect.ask .freshKey := rfl

/-- What comes back from a save. -/
def savedAnswer (collection key : String) : FrontEnd → String
  | .tools => (Json.ofFields [("key", .string key), ("collection", .string collection)]).compact
  | .functions => ""

/-- What comes back from a removal. -/
def removedAnswer (collection key : String) : FrontEnd → String
  | .tools => (Json.ofFields [("removed", .string key), ("collection", .string collection)]).compact
  | .functions => ""

/-- What comes back from a search. -/
def foundAnswer (limit : Nat) (found : List Found) : FrontEnd → String
  | .tools => (Json.ofFields [
      ("memories", .array (found.map (·.toJson.sorted))),
      ("total", .ofNat found.length)]).compact
  | .functions =>
    match found with
    | [] => ""
    | first :: rest =>
      if limit = 1 then first.metadata.text
      else (Json.ofStrings ((first :: rest).map (·.metadata.text))).compact

/-- **A call that saves** a text under a key, in the collection that is asked for. -/
inductive Saves (s : Services) (text : String) (key requested : Option String) :
    FrontEnd → Effect String String → Prop where
  /-- through the tool -/
  | tools (description metadata : Option String) :
      Saves s text key requested .tools (ToolEffect.saveMemory s text key requested description metadata)
  /-- through the function, with whatever other variables -/
  | functions {f : Function} {v : Variables} (found : s.kernel.registry.find "memory.save" = .ok f)
      (input : v.get? "input" = some text) (keyed : v.get? "key" = key) (placed : v.get? "collection" = requested) :
      Saves s text key requested .functions ((f.invoke v).mapError (·.report))

/-- **A call that removes** what is saved under a key, from the collection that is asked for. -/
inductive Removes (s : Services) (key : String) (requested : Option String) :
    FrontEnd → Effect String String → Prop where
  /-- through the tool -/
  | tools : Removes s key requested .tools (ToolEffect.removeMemory s key requested)
  /-- through the function, which refuses a key of blanks -/
  | functions {f : Function} {v : Variables} (found : s.kernel.registry.find "memory.remove" = .ok f)
      (named : isBlankText key = false) (keyed : v.get? "key" = some key) (placed : v.get? "collection" = requested) :
      Removes s key requested .functions ((f.invoke v).mapError (·.report))

/-- **A call that searches** the collection that is asked for, for no more than a limit and nothing less relevant than a
least. -/
inductive Recalls (s : Services) (query : String) (requested : Option String) :
    Nat → Float → FrontEnd → Effect String String → Prop where
  /-- through the tool, which keeps both within bounds -/
  | tools {wanted : Option Nat} {threshold : Option Float}
      (above : 0.0 ≤ threshold.getD s.config.memory.defaultRelevance)
      (below : threshold.getD s.config.memory.defaultRelevance ≤ 1.0) :
      Recalls s query requested (max 1 (min ToolEffect.mostRecalled (wanted.getD ToolEffect.usuallyRecalled)))
        (threshold.getD s.config.memory.defaultRelevance) .tools
        (ToolEffect.recallMemory s query requested wanted threshold)
  /-- through the function, which reads both from its variables, and refuses a query of blanks -/
  | functions {f : Function} {v : Variables} {limit : Nat} {least : Float}
      (found : s.kernel.registry.find "memory.recall" = .ok f)
      (named : isBlankText query = false) (input : v.get? "input" = some query)
      (placed : v.get? "collection" = requested)
      (relevance : valueOr Number.readFloat? (fillDefaults f.view.parameters v) "relevance"
        s.config.memory.defaultRelevance = pure least)
      (count : valueOr (Number.readNatural? Number.largest64) (fillDefaults f.view.parameters v) "limit"
        s.config.memory.defaultLimit = pure limit) :
      Recalls s query requested limit least .functions ((f.invoke v).mapError (·.report))

variable {c : Config} {store : Store} {embedder : Embedder} {completion : Option Completion} {front : FrontEnd}
  {p : Effect String String} {text key query : String} {requested : Option String}

/-- **A program asks** a question and shows what comes of it: a failure in words of its own, a value as it is shown. -/
def Asks {α : Type} (p : Effect String String) (question : Effect MemoryError α) (shown : α → String) : Prop :=
  ∃ word, p = do
    let value ← question.mapError word
    return shown value

theorem config_assemble : (Services.assemble c store (some embedder) completion).config = c := rfl

theorem memoryOf_assemble :
    ToolEffect.memoryOf (.assemble c store (some embedder) completion) = pure ⟨store, embedder⟩ := rfl

/-- **A removal** is a removal from the memory. -/
theorem Removes.asks (h : Removes (.assemble c store (some embedder) completion) key requested front p) :
    Asks p ((Semantic.mk store embedder).remove (front.collection c requested) key)
      fun _ => front.removedAnswer (front.collection c requested) key := by
  cases h with
  | tools => exact ⟨_, rfl⟩
  | @functions f v found named keyed placed =>
    have hhandles : f.Handles (.ofConfig c) (forget ⟨store, embedder⟩ (.ofConfig c)) :=
      handles_of_find (by simp) found
    obtain ⟨hinvoke, -, hkey, hcollection⟩ := hhandles.invoke v
    rw [keyed] at hkey
    rw [placed] at hcollection
    refine ⟨fun e => ((e : Failure).within "failed to remove memory").report, ?_⟩
    rw [hinvoke, forget, requiredText_eq hkey named, pure_bind, Effect.mapError_bind, fromMemory,
      Effect.mapError_mapError, hcollection]
    rfl

/-- **A search** is a search of the memory. -/
theorem Recalls.asks {limit : Nat} {least : Float}
    (h : Recalls (.assemble c store (some embedder) completion) query requested limit least front p) :
    Asks p ((Semantic.mk store embedder).search (front.collection c requested) query limit least false)
      (front.foundAnswer limit) := by
  cases h with
  | @tools wanted threshold above below =>
    rw [config_assemble] at above below ⊢
    refine ⟨fun e => s!"search failed: {e.message}", ?_⟩
    rw [ToolEffect.recallMemory, memoryOf_assemble, pure_bind, config_assemble]
    simp only [above, below, decide_true, Bool.and_true, Bool.not_true, Bool.false_eq_true, if_false]
    rfl
  | @functions f v limit least found named input placed relevance count =>
    have hhandles : f.Handles (.ofConfig c) (recollect ⟨store, embedder⟩ (.ofConfig c)) :=
      handles_of_find (by simp) found
    obtain ⟨hinvoke, hinput, -, hcollection⟩ := hhandles.invoke v
    rw [input] at hinput
    rw [placed] at hcollection
    refine ⟨fun e => ((e : Failure).within "memory search failed").report, ?_⟩
    have hrelevance : valueOr Number.readFloat? (fillDefaults f.view.parameters v) "relevance"
        (MemoryDefaults.ofConfig c).relevance = pure least := relevance
    have hcount : valueOr (Number.readNatural? Number.largest64) (fillDefaults f.view.parameters v) "limit"
        (MemoryDefaults.ofConfig c).limit = pure limit := count
    rw [hinvoke, recollect, requiredText_eq hinput named, pure_bind, hrelevance, pure_bind, hcount, pure_bind,
      Effect.mapError_bind, fromMemory, Effect.mapError_mapError, hcollection]
    refine bind_congr fun found => ?_
    cases found with
    | nil => rfl
    | cons first rest =>
      by_cases hone : limit = 1
      · simp only [hone, foundAnswer, if_true]
        rfl
      · simp only [hone, foundAnswer, if_false]
        rfl

/-- **A save** chooses a key and saves the text under it in the memory; a text of blanks is refused. -/
theorem Saves.asks {key : Option String}
    (h : Saves (.assemble c store (some embedder) completion) text key requested front p) :
    (isBlankText text = true ∧ ∃ message, p = throw message) ∨
    isBlankText text = false ∧ ∃ description metadata filing, p = front.chosen key >>= filing ∧
      ∀ chosen, Asks (filing chosen)
        ((Semantic.mk store embedder).save (front.collection c requested) text chosen description metadata)
        (front.savedAnswer (front.collection c requested)) := by
  cases h with
  | tools description metadata =>
    cases hblank : isBlankText text with
    | true => exact .inl ⟨rfl, "text must not be empty", by simp [ToolEffect.saveMemory, hblank]⟩
    | false =>
      refine .inr ⟨rfl, description, metadata, _, ?_, fun chosen => ⟨fun e => s!"save failed: {e.message}", rfl⟩⟩
      rw [ToolEffect.saveMemory, hblank]
      rfl
  | @functions f v found input keyed placed =>
    have hhandles : f.Handles (.ofConfig c) (save ⟨store, embedder⟩ (.ofConfig c)) :=
      handles_of_find (by simp) found
    obtain ⟨hinvoke, hinput, hkey, hcollection⟩ := hhandles.invoke v
    rw [input] at hinput
    rw [keyed] at hkey
    rw [placed] at hcollection
    rw [hinvoke, save]
    cases hblank : isBlankText text with
    | true =>
      have hmissing : given? ((fillDefaults f.view.parameters v).get? "input") = none := by
        rw [hinput, given?_of_blank hblank]
      rw [requiredText_of_missing hmissing]
      exact .inl ⟨rfl, _, rfl⟩
    | false =>
      refine .inr ⟨rfl, none, none, _, ?_, fun chosen =>
        ⟨fun e => ((e : Failure).within "failed to save memory").report, rfl⟩⟩
      rw [requiredText_eq hinput hblank, pure_bind, chosen]
      cases hgiven : given? key with
      | none =>
        rw [requiredText_of_missing (by rw [hkey, hgiven])]
        rfl
      | some name =>
        obtain ⟨rfl, htext⟩ := given?_eq_some_iff.mp hgiven
        rw [requiredText_eq hkey htext, pure_bind, Effect.mapError_bind, fromMemory, Effect.mapError_mapError,
          hcollection]
        rfl

end FrontEnd

end Orchestration
