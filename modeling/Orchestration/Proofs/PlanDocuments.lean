import Orchestration.Plan.Basic
import Orchestration.Proofs.JsonLayout

/-!
# Plans as documents

A plan that was written is read as it was, whatever texts it holds and however many steps it has. A text may
leave out what a plan need not have; once it was read, writing and reading change nothing more.

* `PlanStep.undoes`, `Plan.undoes` — the decoders take steps and plans back.
* `Plan.ofText?_toText` — the text of a plan is read as that plan.
-/

namespace Orchestration

open Decoder

/-- Steps are taken back, those that add to a result and those that do not: the last field is left out where
there is nothing to write. -/
theorem PlanStep.undoes : Undoes decoder toJson 2 := by
  refine undoes_record fun s => ?_
  obtain ⟨plugin, function, parameters, outputs, appendTo⟩ := s
  obtain ⟨parametersTree, hparameters, hparametersRead⟩ := undoes_texts parameters
  obtain ⟨outputsTree, houtputs, houtputsRead⟩ := undoes_strings outputs
  cases appendTo with
  | none =>
    refine ⟨[("plugin_name", .string plugin), ("function_name", .string function),
      ("parameters", parametersTree), ("outputs", outputsTree)],
      ?_, by simp, by simp, fun depth hdepth => ?_⟩
    · simp [toJson, Json.source?, Json.fieldSources?, hparameters, houtputs]
    · simp [Fields.required, Fields.withDefault, lookupEntry, hparametersRead depth hdepth,
        houtputsRead depth hdepth]
  | some name =>
    refine ⟨[("plugin_name", .string plugin), ("function_name", .string function),
      ("parameters", parametersTree), ("outputs", outputsTree), ("append_to_result", .string name)],
      ?_, by simp, by simp, fun depth hdepth => ?_⟩
    · simp [toJson, Json.source?, Json.fieldSources?, hparameters, houtputs]
    · simp [Fields.required, Fields.withDefault, lookupEntry, Decoder.option,
        hparametersRead depth hdepth, houtputsRead depth hdepth]

namespace Plan

/-- Plans are taken back. -/
theorem undoes : Undoes decoder toJson 4 := by
  refine undoes_record fun p => ?_
  obtain ⟨stepsTree, hsteps, hstepsRead⟩ := PlanStep.undoes.list p.steps
  simp only [Json.source?] at hsteps
  obtain ⟨outputsTree, houtputs, houtputsRead⟩ := undoes_strings p.outputs
  refine ⟨[("goal", .string p.goal), ("steps", stepsTree), ("outputs", outputsTree)],
    ?_, by simp, by simp, fun depth hdepth => ?_⟩
  · simp [toJson, Json.source?, Json.fieldSources?, hsteps, houtputs]
  · simp [Fields.required, Fields.withDefault, lookupEntry, hstepsRead depth hdepth,
      houtputsRead depth (by omega)]

/-- **Plans are read as they were written**: any plan from its own text, and so any plan that was read from some
text, whatever that text left out. -/
theorem ofText?_toText :
    (∀ plan : Plan, ofText? plan.toText = some plan) ∧
      ∀ (text : String) (plan : Plan), ofText? text = some plan → ofText? plan.toText = some plan := by
  have hread : ∀ plan : Plan, ofText? plan.toText = some plan := undoes.read?_pretty (by decide)
  exact ⟨hread, fun _ plan _ => hread plan⟩

/-- A text that leaves out all that it can, and gives one step by its fields and the other by its values in
order. -/
theorem ofText?_toText_sparse :
    let text := "\x7b\"steps\":[\x7b\"function_name\":\"add\",\"plugin_name\":\"math\"\x7d,[\"text\",\"upper\"]],\"goal\":\"g\"\x7d"
    let plan : Plan := {
      goal := "g"
      steps := [{ plugin := "math", function := "add" }, { plugin := "text", function := "upper" }] }
    ofText? text = some plan ∧ ofText? plan.toText = some plan := by
  intro text plan
  have hread : ofText? text = some plan := by decide +kernel
  exact ⟨hread, ofText?_toText.2 text plan hread⟩

end Plan

end Orchestration
