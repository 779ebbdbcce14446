import Mathlib.Data.List.Induction
import Orchestration.Proofs.PlanReading
import Orchestration.Proofs.QualifiedNames
import Orchestration.Proofs.WrittenMarkup

/-!
# Plans that were written in markup

A tag writes a step if it names the function, in any case, and its attributes say the rest. A plan of such tags
is read as the steps that they write.

* `Tag.Writes` — the tag says what the step is.
* `stepOf_element`, `stepsOf_tags` — and it is read so.
* `Plan.ofSteps_eq` — what a plan notes of its steps.
* `readMarkup_planText` — steps of functions that are there can be written, and are read as they were.
-/

namespace Orchestration

open Text

namespace Planner

/-! ### Names -/

/-- The name leads to the function of the step: it has the two names of the step, in any case, and it need not
say that the plugin is the global one. -/
inductive Spells (s : PlanStep) : String → Prop
  | inPlugin {plugin function : String} (hne : plugin ≠ "") (hdot : '.' ∉ function.toList)
      (hplugin : lower plugin = lower s.plugin) (hfunction : lower function = lower s.function) :
      Spells s (plugin ++ "." ++ function)
  | global {function : String} (hdot : '.' ∉ function.toList)
      (hplugin : lower s.plugin = lower globalPlugin) (hfunction : lower function = lower s.function) :
      Spells s function

/-- The step has the names of a function that is there, as they were registered. -/
def Registered (k : Kernel) (s : PlanStep) : Prop :=
  ∃ v ∈ k.registry.views, s.plugin = v.plugin ∧ s.function = v.name

variable {k : Kernel} {s : PlanStep} {t : Tag}

/-- The names of the step lead to the function. -/
theorem Registered.exists_function (h : Registered k s) (hk : k.registry.Filed) :
    ∃ f, k.registry.get? s.plugin s.function = some f ∧ s.plugin = f.view.plugin ∧
      s.function = f.view.name ∧ s.plugin ≠ "" := by
  obtain ⟨v, hv, hplugin, hfunction⟩ := h
  obtain ⟨f, hget, rfl⟩ := hk.get_of_mem_views hv
  rw [hplugin, hfunction]
  exact ⟨f, hget, rfl, rfl, hk.plugin_ne_empty hget⟩

/-- A name that spells those of a step leads to the same function: the look-up of a plugin and the look-up of a
function in it both go by small forms. -/
theorem find_of_spells (hk : k.registry.Filed) (hs : Registered k s) {name : String} (h : Spells s name) :
    ∃ f, k.registry.find name = .ok f ∧ s.plugin = f.view.plugin ∧ s.function = f.view.name := by
  obtain ⟨f, hget, hplugin, hfunction, hne⟩ := hs.exists_function hk
  refine ⟨f, ?_, hplugin, hfunction⟩
  rw [Registry.find_eq_ok_iff, ← hget]
  cases h with
  | inPlugin hspelled hdot hp hf =>
    rw [splitQualified_inPlugin hspelled hdot]
    exact Registry.get?_congr hspelled hne hp hf
  | global hdot hp hf =>
    rw [splitQualified_global hdot]
    have hglobal : globalPlugin ≠ "" := by decide
    exact Registry.get?_congr hglobal hne hp.symm hf

/-! ### Steps -/

/-- The values of the attributes of a name. -/
def valuesOf (name : String) (pairs : List (String × String)) : List String :=
  (pairs.filter (·.1 = name)).map (·.2)

/-- Whether an attribute is an argument: it has neither of the two names that say where the output goes. -/
def isArgument (pair : String × String) : Bool :=
  pair.1 ≠ "setContextVariable" ∧ pair.1 ≠ "appendToResult"

namespace Tag

/-- The attributes of a tag, with their values. -/
def pairs (t : Tag) : List (String × String) := t.arguments.map Attribute.pair

/-- The tag says what the step is: it names its function, its attributes are the arguments, in any order, the
variables that take the output, in order, and the result variable, if there is one. -/
structure Writes (t : Tag) (s : PlanStep) : Prop where
  name : Spells s t.name
  parameters : (t.pairs.filter isArgument).Perm s.parameters.entries
  outputs : valuesOf "setContextVariable" t.pairs = s.outputs
  appendTo : valuesOf "appendToResult" t.pairs = s.appendTo.toList

end Tag

theorem withAttribute_raw (a : Attribute) (s : PlanStep) :
    withAttribute s a.raw =
      if a.pair.1 = "setContextVariable" then s.withOutput a.pair.2
      else if a.pair.1 = "appendToResult" then s.appendingTo a.pair.2
      else s.withParameter a.pair.1 a.pair.2 := by
  rw [← a.unescape_raw]
  rfl

/-- What attributes make of a step, field by field. -/
theorem foldl_withAttribute (as : List Attribute) (s : PlanStep) :
    (as.map Attribute.raw).foldl withAttribute s =
      { s with
        parameters :=
          ((as.map Attribute.pair).filter isArgument).foldl (fun d p => d.insert p.1 p.2) s.parameters
        outputs := s.outputs ++ valuesOf "setContextVariable" (as.map Attribute.pair)
        appendTo :=
          (valuesOf "appendToResult" (as.map Attribute.pair)).foldl (fun _ v => some v) s.appendTo } := by
  induction as generalizing s with
  | nil => simp [valuesOf]
  | cons a as ih =>
    rw [List.map_cons, List.foldl_cons, ih, withAttribute_raw, List.map_cons]
    by_cases hset : a.pair.1 = "setContextVariable"
    · simp [valuesOf, isArgument, hset, PlanStep.withOutput]
    · by_cases happend : a.pair.1 = "appendToResult"
      · simp [valuesOf, isArgument, happend, PlanStep.appendingTo]
      · simp [valuesOf, isArgument, hset, happend, PlanStep.withParameter]

/-- A tag is read as the step that it writes. -/
theorem stepOf_element (h : t.Writes s) {v : FunctionView} (hplugin : s.plugin = v.plugin)
    (hfunction : s.function = v.name) : stepOf v t.element.attributes = s := by
  have hparameters : (t.pairs.filter isArgument).foldl (fun d p => d.insert p.1 p.2) ∅ = s.parameters :=
    Dictionary.ofList_of_perm h.parameters
  have happend : (valuesOf "appendToResult" t.pairs).foldl (fun _ v => some v) none = s.appendTo := by
    rw [h.appendTo]
    cases s.appendTo <;> rfl
  rw [stepOf, Tag.element, foldl_withAttribute]
  -- the step starts with the names from the view and nothing else
  change PlanStep.mk v.plugin v.name ((t.pairs.filter isArgument).foldl _ ∅)
    ([] ++ valuesOf "setContextVariable" t.pairs) ((valuesOf "appendToResult" t.pairs).foldl _ none) = s
  rw [hparameters, happend, h.outputs, List.nil_append, ← hplugin, ← hfunction]

/-- Tags are read as the steps that they write. -/
theorem stepsOf_tags (hk : k.registry.Filed) (allowMissing : Bool) {tags : List Tag} {steps : List PlanStep}
    (h : List.Forall₂ Tag.Writes tags steps) (hsteps : ∀ s ∈ steps, Registered k s) :
    stepsOf k allowMissing (tags.map Tag.element) = .ok steps := by
  induction h with
  | nil => rfl
  | @cons t s tags steps hfirst _ ih =>
    obtain ⟨f, hfind, hplugin, hfunction⟩ := find_of_spells hk (hsteps s List.mem_cons_self) hfirst.name
    rw [List.map_cons, stepsOf, t.function?_element]
    simp only [hfind, ih fun s' hs' => hsteps s' (List.mem_cons_of_mem _ hs'),
      stepOf_element hfirst hplugin hfunction]
    rfl

end Planner

/-! ### Result variables -/

namespace Plan

/-- A name that was there already is not noted again. -/
theorem eraseDups_concat (names : List String) (name : String) :
    (names ++ [name]).eraseDups =
      if names.eraseDups.contains name then names.eraseDups else names.eraseDups ++ [name] := by
  rw [List.eraseDups_append]
  by_cases h : name ∈ names <;> simp [List.removeAll, h, List.eraseDups_cons]

/-- **A plan of steps notes each result variable once**, in the order in which steps first add to them. -/
theorem ofSteps_eq (goal : String) (steps : List PlanStep) :
    ofSteps goal steps = { goal, steps, outputs := (steps.filterMap (·.appendTo)).eraseDups } := by
  -- the induction is from the back, where steps are added
  induction steps using List.reverseRecOn with
  | nil => rfl
  | append_singleton steps s ih =>
    have hlast : ofSteps goal (steps ++ [s]) = (ofSteps goal steps).add s := by
      rw [ofSteps, List.foldl_append, ofSteps, List.foldl_cons, List.foldl_nil]
    rw [hlast, ih, add, List.filterMap_append]
    cases happend : s.appendTo with
    | none => simp [happend]
    | some name => simp [happend, eraseDups_concat]

end Plan

namespace Planner

variable {k : Kernel} {s : PlanStep}

/-! ### Steps that can be written -/

/-- The step can be written: its function is there, and its names have the characters that names in markup
have. Values, output names and result variables may be any texts. -/
structure Writable (k : Kernel) (s : PlanStep) : Prop where
  registered : Registered k s
  plugin : s.plugin.toList.all isElementChar
  function : s.function.toList.all isElementChar
  undotted : '.' ∉ s.function.toList
  parameters : ∀ p ∈ s.parameters.entries, AttributeName p.1 ∧ isArgument p

theorem exists_attributes {pairs : List (String × String)} (h : ∀ p ∈ pairs, AttributeName p.1) :
    ∃ as : List Attribute, as.map Attribute.pair = pairs := by
  induction pairs with
  | nil => exact ⟨[], rfl⟩
  | cons p pairs ih =>
    obtain ⟨as, rfl⟩ := ih fun q hq => h q (List.mem_cons_of_mem _ hq)
    have hquote : '"' = '"' ∨ '"' = '\'' := .inl rfl
    obtain ⟨signs, hfits, hchars⟩ := Sign.exists_written hquote p.2.toList
    let a : Attribute :=
      { before := { chars := [' '] }, name := p.1, named := h p List.mem_cons_self, signs, fits := hfits }
    refine ⟨a :: as, ?_⟩
    rw [List.map_cons, Attribute.pair, hchars, String.ofList_toList]

/-- The name of a step, as the listing of functions shows it, leads to its function. -/
theorem spells_qualified (hk : k.registry.Filed) (h : Writable k s) : Spells s s.qualified := by
  obtain ⟨_, -, -, -, hne⟩ := h.registered.exists_function hk
  rw [PlanStep.qualified, qualifiedName]
  split
  · next hglobal => exact .global h.undotted (by rw [hglobal]) rfl
  · exact .inPlugin hne h.undotted rfl rfl

section Values

variable {name other : String}

theorem valuesOf_append (pairs more : List (String × String)) :
    valuesOf name (pairs ++ more) = valuesOf name pairs ++ valuesOf name more := by
  rw [valuesOf, List.filter_append, List.map_append, valuesOf, valuesOf]

theorem valuesOf_named (values : List String) : valuesOf name (values.map (name, ·)) = values := by
  simp [valuesOf, List.filter_map, Function.comp_def]

theorem valuesOf_other (h : other ≠ name) (values : List String) :
    valuesOf name (values.map (other, ·)) = [] := by
  simp [valuesOf, List.filter_map, Function.comp_def, h]

/-- The arguments of a step have neither of the two names that say where the output goes. -/
theorem valuesOf_entries (hname : name = "setContextVariable" ∨ name = "appendToResult") (h : Writable k s) :
    valuesOf name s.parameters.entries = [] := by
  rw [valuesOf, List.map_eq_nil_iff, List.filter_eq_nil_iff]
  intro p hp heq
  have hargument := (h.parameters p hp).2
  simp only [isArgument, decide_eq_true_eq] at hargument heq
  rcases hname with rfl | rfl
  · exact hargument.1 heq
  · exact hargument.2 heq

end Values

/-- Every step that can be written is written by some tag. -/
theorem Writable.exists_tag (hk : k.registry.Filed) (h : Writable k s) : ∃ t : Tag, t.Writes s := by
  have hnames : ∀ p ∈ s.parameters.entries ++ (s.outputs.map ("setContextVariable", ·) ++
      s.appendTo.toList.map ("appendToResult", ·)), AttributeName p.1 := by
    intro p hp
    simp only [List.mem_append, List.mem_map] at hp
    rcases hp with hp | ⟨_, _, rfl⟩ | ⟨_, _, rfl⟩
    · exact (h.parameters p hp).1
    · exact (by decide +kernel : AttributeName "setContextVariable")
    · exact (by decide +kernel : AttributeName "appendToResult")
  obtain ⟨as, has⟩ := exists_attributes hnames
  have hnamed : s.qualified.toList.all isElementChar := by
    have hdot : isElementChar '.' := by decide +kernel
    rw [PlanStep.qualified, qualifiedName]
    split
    · exact h.function
    · simp [String.toList_append, List.all_append, h.plugin, h.function, hdot]
  refine ⟨{ name := s.qualified, named := hnamed, arguments := as }, spells_qualified hk h, ?_, ?_, ?_⟩
  · change ((as.map Attribute.pair).filter isArgument).Perm _
    rw [has, List.filter_append, List.filter_eq_self.mpr fun p hp => (h.parameters p hp).2]
    simp [isArgument, List.filter_map, Function.comp_def]
  · change valuesOf _ (as.map Attribute.pair) = _
    rw [has, valuesOf_append, valuesOf_append, valuesOf_entries (.inl rfl) h, valuesOf_named,
      valuesOf_other (by decide)]
    simp
  · change valuesOf _ (as.map Attribute.pair) = _
    rw [has, valuesOf_append, valuesOf_append, valuesOf_entries (.inr rfl) h, valuesOf_named,
      valuesOf_other (by decide)]
    simp

theorem exists_tags (hk : k.registry.Filed) {steps : List PlanStep} (h : ∀ s ∈ steps, Writable k s) :
    ∃ tags, List.Forall₂ Tag.Writes tags steps := by
  induction steps with
  | nil => exact ⟨[], .nil⟩
  | cons s steps ih =>
    obtain ⟨t, ht⟩ := (h s List.mem_cons_self).exists_tag hk
    obtain ⟨tags, htags⟩ := ih fun s' hs' => h s' (List.mem_cons_of_mem _ hs')
    exact ⟨t :: tags, .cons ht htags⟩

/-! ### Plans -/

/-- **Plans that were written are read back**: in a kernel put together in any way, steps of its functions can
be written; and however they are written, and whatever stands around the plan, the plan that is read has these
very steps, under the names that were registered, and notes each result variable once. -/
theorem readMarkup_planText (assembly : List Assembly) (steps : List PlanStep) (hne : steps ≠ [])
    (hsteps : ∀ s ∈ steps, Writable (Kernel.assembled assembly) s) :
    (∃ tags, List.Forall₂ Tag.Writes tags steps) ∧
      ∀ (tags : List Tag) (last : Gap) (before after goal : String) (allowMissing : Bool),
        List.Forall₂ Tag.Writes tags steps → ¬ "<plan".toList <:+: before.toList →
          readMarkup (before ++ .ofList (planText tags last) ++ after) goal (Kernel.assembled assembly)
              allowMissing =
            .ok { goal, steps, outputs := (steps.filterMap (·.appendTo)).eraseDups } := by
  have hfiled := Kernel.filed_assembled assembly
  refine ⟨exists_tags hfiled hsteps, fun tags last before after goal allowMissing htags hbefore => ?_⟩
  have hread := stepsOf_tags hfiled allowMissing htags fun s hs => (hsteps s hs).registered
  have hsome : steps.isEmpty = false := by simpa using hne
  rw [readMarkup, planElements?_planText hbefore]
  simp only [hread, bind, Except.bind, hsome, Bool.false_eq_true, if_false]
  rw [Plan.ofSteps_eq]
  rfl

/-! Two steps, written with both quotes, with and without entities, and under other spellings. -/

/-- A text of plain characters. -/
def plainly (text : String) : List Sign := text.toList.map .plain

/-- A step with an argument that looks like markup. -/
def summarizing : PlanStep where
  plugin := "Writer.v2"
  function := "Sum-Up"
  parameters := .ofList [("input", "1 < 2 && \"x='/>\" &lt;"), ("xml:lang", "fr")]
  outputs := ["SUMMARY", "A & B"]
  appendTo := some "RESULT"

/-- A step of the global plugin. -/
def joking : PlanStep where
  plugin := globalPlugin
  function := "Joke"
  appendTo := some "RESULT"

/-- The first step as it is written. -/
def summarizingTag : Tag where
  before := { chars := ['\n', '\t'] }
  name := "writer.V2.sum-up"
  arguments := [
    { before := { chars := [' '] }, name := "appendToResult", signs := plainly "RESULT" },
    { before := { chars := ['\n'] }, name := "xml:lang", beforeSign := { chars := [' '] },
      afterSign := { chars := [' ', '\t'] }, quote := '\'', signs := plainly "fr" },
    { before := { chars := [' '] }, name := "setContextVariable", signs := plainly "SUMMARY" },
    { before := { chars := [' '] }, name := "input", quote := '\'',
      signs := plainly "1 " ++ .entity .lt :: plainly " 2 " ++ .entity .amp :: .entity .amp :: plainly " \"x=" ++
        .entity .apos :: .plain '/' :: .entity .gt :: .entity .quot :: .plain ' ' :: .entity .amp ::
        plainly "lt;" },
    { before := { chars := [' '] }, name := "setContextVariable",
      signs := plainly "A " ++ .entity .amp :: plainly " B" }]
  trail := { chars := [' '] }

/-- The second step as it is written. -/
def jokingTag : Tag where
  name := "JOKE"
  arguments := [
    { before := { chars := [' '] }, name := "appendToResult", quote := '\'', signs := plainly "RESULT" }]

/-- A text around the plan may hold all but the start of another, and after the plan even that. -/
theorem readMarkup_planText_summarizing :
    let assembly : List Assembly :=
      [.importPlugin "Writer.v2" [.echo "Sum-Up"], .register "" (.echo "Joke")]
    let k := Kernel.assembled assembly
    let last : Gap := { chars := ['\n'] }
    let text := "<pla<!-- \"" ++ String.ofList (planText [summarizingTag, jokingTag] last) ++ "</plan><plan><x>"
    String.ofList (planText [summarizingTag, jokingTag] last) =
        "<plan>\n\t<function.writer.V2.sum-up appendToResult=\"RESULT\"\nxml:lang = \t'fr'" ++
          " setContextVariable=\"SUMMARY\" input='1 &lt; 2 &amp;&amp; \"x=&apos;/&gt;&quot; &amp;lt;'" ++
          " setContextVariable=\"A &amp; B\" /><function.JOKE appendToResult='RESULT'/>\n</plan>" ∧
      (∀ s ∈ [summarizing, joking], Writable k s) ∧
      List.Forall₂ Tag.Writes [summarizingTag, jokingTag] [summarizing, joking] ∧
      readMarkup text "g" k false = .ok { goal := "g", steps := [summarizing, joking], outputs := ["RESULT"] } := by
  intro assembly k last text
  have hsteps : ∀ s ∈ [summarizing, joking], Writable k s := by
    have hsummarizing : Writable k summarizing := {
      registered := ⟨Registry.viewIn "Writer.v2" (.echo "Sum-Up"), by decide +kernel, rfl, rfl⟩
      plugin := by decide +kernel
      function := by decide +kernel
      undotted := by decide +kernel
      parameters := by decide +kernel }
    have hjoking : Writable k joking := {
      registered := ⟨Registry.viewIn "" (.echo "Joke"), by decide +kernel, rfl, rfl⟩
      plugin := by decide +kernel
      function := by decide +kernel
      undotted := by decide +kernel
      parameters := by decide +kernel }
    simpa using ⟨hsummarizing, hjoking⟩
  have htags : List.Forall₂ Tag.Writes [summarizingTag, jokingTag] [summarizing, joking] := by
    refine .cons ⟨?_, by decide +kernel, by decide +kernel, by decide +kernel⟩
      (.cons ⟨?_, by decide +kernel, by decide +kernel, by decide +kernel⟩ .nil)
    · exact @Spells.inPlugin summarizing "writer.V2" "sum-up" (by decide) (by decide +kernel)
        (by decide +kernel) (by decide +kernel)
    · exact .global (by decide +kernel) (by decide +kernel) (by decide +kernel)
  have hread := (readMarkup_planText assembly [summarizing, joking] (List.cons_ne_nil _ _) hsteps).2
    [summarizingTag, jokingTag] last "<pla<!-- \"" "</plan><plan><x>" "g" false htags (by decide +kernel)
  exact ⟨by decide +kernel, hsteps, htags, hread⟩

end Planner

end Orchestration
